import GameArchive.Path
import GameArchive.Signature

/-!
# Choice of a strategy

How a container is extracted follows from its signature and, where the signature leaves a choice,
from the extension of its name: a general archive named as a package is one, and the signature of
Morrowind archives is so short that the extension has to confirm it.
-/

namespace GameArchive

/-- How a container is extracted. -/
inductive Strategy where
  | bethesda (kind : ContainerKind)
  | btar
  | omod
  | archiver
  deriving Repr, DecidableEq

namespace Strategy

def packageExtension : String := "omod"

def tes3Extension : String := "bsa"

def select (kind? : Option ContainerKind) (name : String) : Except ExtractError Strategy :=
  let unknown := Except.error (.invalidFormat name (.unknownFormat name))
  match kind? with
  | none => unknown
  | some .btar => .ok .btar
  | some .bsa => .ok (.bethesda .bsa)
  | some .ba2 => .ok (.bethesda .ba2)
  | some .tes3 =>
      if Path.hasExtension name tes3Extension then .ok (.bethesda .tes3) else unknown
  | some .zip | some .rarOld | some .rarNew | some .sevenZip =>
      if Path.hasExtension name packageExtension then .ok .omod else .ok .archiver

end Strategy
end GameArchive
