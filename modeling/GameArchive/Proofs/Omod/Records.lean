import GameArchive.Proofs.Omod.TextLength
import GameArchive.Proofs.Reading

/-!
# Records of packages read back

A record is a row of fields: texts behind their lengths, and numbers of fixed width, some of them in
two's complement.  Every field tells where it ends, so that a configuration is read back whatever
stands behind it, and a list of files is read back up to its end.  A length has room for texts of
fewer than 2^32 bytes, for which five bytes are enough.
-/

namespace GameArchive
namespace Omod

namespace WrittenLength

/-- A length in as few bytes as possible. -/
def ofNat (length : Nat) : WrittenLength :=
  if small : length < 0x80 then
    { front := []
      last := UInt8.ofNat length
      continued := nofun
      ended := by
        rw [UInt8.toNat_ofNat']
        omega }
  else
    let others := ofNat (length / 0x80)
    { front := UInt8.ofNat (0x80 + length % 0x80) :: others.front
      last := others.last
      continued := by
        refine List.forall_mem_cons.mpr ⟨?_, others.continued⟩
        rw [UInt8.toNat_ofNat']
        omega
      ended := others.ended }
termination_by length

theorem bytes_ofNat (length : Nat) :
    (ofNat length).bytes =
      if length < 0x80 then [UInt8.ofNat length]
      else UInt8.ofNat (0x80 + length % 0x80) :: (ofNat (length / 0x80)).bytes := by
  rw [ofNat]
  split <;> rfl

theorem value_ofNat (length : Nat) : (ofNat length).value = length := by
  induction length using Nat.strongRecOn with
  | ind length ih =>
      rw [value, bytes_ofNat]
      split
      · next small =>
          simp only [sevenBitValue, UInt8.toNat_ofNat']
          omega
      · next large =>
          have others := ih (length / 0x80) (by omega)
          rw [value] at others
          rw [sevenBitValue, others, UInt8.toNat_ofNat']
          omega

theorem length_bytes_ofNat_le {count length : Nat} (small : length < 1 <<< (7 * (count + 1))) :
    (ofNat length).bytes.length ≤ count + 1 := by
  induction count generalizing length with
  | zero =>
      have oneByte : length < 0x80 := small
      rw [bytes_ofNat, if_pos oneByte]
      rfl
  | succ count ih =>
      rw [bytes_ofNat]
      split
      · simp
      · have others : length / 0x80 < 1 <<< (7 * (count + 1)) := by
          rw [Nat.mul_succ, Nat.shiftLeft_add] at small
          simp only [Nat.shiftLeft_eq] at small ⊢
          omega
        exact Nat.succ_le_succ (ih others)

end WrittenLength

/-! ## Fields -/

/-- A text whose length fits into a word. -/
def IsStorable (text : String) : Prop :=
  (Utf8.encode text).length < UInt32.size

instance : DecidablePred IsStorable := fun text =>
  inferInstanceAs (Decidable ((Utf8.encode text).length < UInt32.size))

def writeText (text : String) : Bytes :=
  (WrittenLength.ofNat (Utf8.encode text).length).bytes ++ Utf8.encode text

theorem readText_writeText {text : String} (storable : IsStorable text) (rest : Bytes) :
    readText (writeText text ++ rest) = .ok (text, rest) := by
  have wide : UInt32.size ≤ 1 <<< (7 * (4 + 1)) := by decide
  rw [writeText, List.append_assoc, readText_bytes_eq_ok_iff]
  refine ⟨?_, rfl, ?_⟩
  · exact WrittenLength.length_bytes_ofNat_le (Nat.lt_of_lt_of_le storable wide)
  · rw [WrittenLength.value_ofNat, Nat.mod_eq_of_lt storable]

theorem writeText_ne_nil (text : String) : writeText text ≠ [] := by
  simp [writeText, WrittenLength.bytes]

/-- A number that has a form in two's complement of `width` bytes. -/
def IsSigned (width : Nat) (value : Int) : Prop :=
  -(LittleEndian.bound width : Int) ≤ 2 * value ∧ 2 * value < LittleEndian.bound width

instance (width : Nat) : DecidablePred (IsSigned width) := fun _ =>
  inferInstanceAs (Decidable (_ ∧ _))

/-- The number that has the bytes of `value` in two's complement. -/
def unsigned (width : Nat) (value : Int) : Nat :=
  (value % LittleEndian.bound width).toNat

def writeSigned (width : Nat) (value : Int) : Bytes :=
  LittleEndian.encode width (unsigned width value)

theorem bound_pos (width : Nat) : 0 < LittleEndian.bound width := by
  induction width with
  | zero => decide
  | succ width ih => exact Nat.mul_pos (by decide) ih

theorem signed_unsigned {width : Nat} {value : Int} (isSigned : IsSigned width value) :
    signed width (unsigned width value) = value := by
  have positive := bound_pos width
  obtain ⟨least, greatest⟩ := isSigned
  unfold signed unsigned
  generalize LittleEndian.bound width = bound at positive least greatest
  rcases Int.lt_or_le value 0 with negative | notNegative
  · have residue : value % (bound : Int) = value + bound := by
      rw [← Int.add_emod_right, Int.emod_eq_of_lt (by omega) (by omega)]
    rw [residue, if_neg (by omega)]
    omega
  · rw [Int.emod_eq_of_lt notNegative (by omega), if_pos (by omega)]
    omega

theorem unsigned_natCast {width value : Nat} (isSigned : IsSigned width value) :
    unsigned width value = value := by
  obtain ⟨-, greatest⟩ := isSigned
  rw [unsigned, Int.emod_eq_of_lt (by omega) (by omega), Int.toNat_natCast]

theorem readNumber_encode {width value : Nat} (fits : value < LittleEndian.bound width)
    (rest : Bytes) :
    readNumber width (LittleEndian.encode width value ++ rest) = .ok (value, rest) := by
  rw [readNumber, LittleEndian.read?_encode_append fits]

theorem readNumber_writeSigned (width : Nat) (value : Int) (rest : Bytes) :
    readNumber width (writeSigned width value ++ rest) = .ok (unsigned width value, rest) := by
  have positive := bound_pos width
  have least := Int.emod_nonneg value (b := LittleEndian.bound width) (by omega)
  have greatest := Int.emod_lt_of_pos value (b := LittleEndian.bound width) (by omega)
  apply readNumber_encode
  rw [unsigned]
  omega

/-! ## Configurations -/

/-- A date of creation that a file of the given version holds. -/
def Creation.IsStorable (fileVersion : UInt8) : Creation → Prop
  | .time stamp => 2 ≤ fileVersion ∧ IsSigned 8 stamp
  | .date text => fileVersion < 2 ∧ Omod.IsStorable text

def Creation.write : Creation → Bytes
  | .time stamp => writeSigned 8 stamp
  | .date text => writeText text

theorem readCreation_write {fileVersion : UInt8} {creation : Creation}
    (storable : creation.IsStorable fileVersion) (rest : Bytes) :
    readCreation fileVersion (creation.write ++ rest) = .ok (creation, rest) := by
  cases creation with
  | time stamp =>
      obtain ⟨recent, isSigned⟩ := storable
      rw [readCreation, if_pos recent, Creation.write, readNumber_writeSigned, Outcome.ok_bind]
      simp only [signed_unsigned isSigned]
      rfl
  | date text =>
      obtain ⟨old, storable⟩ := storable
      rw [readCreation, if_neg (UInt8.not_le.mpr old), Creation.write,
        readText_writeText storable, Outcome.ok_bind]
      rfl

def PayloadCompression.number : PayloadCompression → UInt8
  | .lzma => 0
  | .zip => 1

theorem readCompression_number (compression : PayloadCompression) (rest : Bytes) :
    readCompression (compression.number :: rest) = .ok (compression, rest) := by
  cases compression <;> rfl

namespace Config

/-- A configuration whose fields have their forms. -/
structure IsStorable (config : Config) : Prop where
  name : Omod.IsStorable config.name
  majorVersion : IsSigned 4 config.majorVersion
  minorVersion : IsSigned 4 config.minorVersion
  author : Omod.IsStorable config.author
  email : Omod.IsStorable config.email
  website : Omod.IsStorable config.website
  description : Omod.IsStorable config.description
  creation : config.creation.IsStorable config.fileVersion

def write (config : Config) : Bytes :=
  config.fileVersion :: (writeText config.name ++ writeSigned 4 config.majorVersion ++
    writeSigned 4 config.minorVersion ++ writeText config.author ++ writeText config.email ++
    writeText config.website ++ writeText config.description ++ config.creation.write ++
    [config.compression.number])

theorem read_write {config : Config} (storable : config.IsStorable) (rest : Bytes) :
    read (config.write ++ rest) = .ok (config, rest) := by
  simp only [read, write, List.cons_append, List.append_assoc, List.nil_append]
  rw [readByte, Outcome.ok_bind, readText_writeText storable.name, Outcome.ok_bind,
    readNumber_writeSigned, Outcome.ok_bind, readNumber_writeSigned, Outcome.ok_bind,
    readText_writeText storable.author, Outcome.ok_bind,
    readText_writeText storable.email, Outcome.ok_bind,
    readText_writeText storable.website, Outcome.ok_bind,
    readText_writeText storable.description, Outcome.ok_bind,
    readCreation_write storable.creation, Outcome.ok_bind,
    readCompression_number, Outcome.ok_bind]
  simp only [signed_unsigned storable.majorVersion, signed_unsigned storable.minorVersion]
  rfl

end Config

/-! ## Lists of files -/

namespace ListedFile

/-- A file whose fields have their forms. -/
structure IsStorable (file : ListedFile) : Prop where
  name : Omod.IsStorable file.name
  length : IsSigned 8 file.length

def write (file : ListedFile) : Bytes :=
  writeText file.name ++ LittleEndian.encode 4 file.crc.toNat ++ writeSigned 8 file.length

theorem read_write {file : ListedFile} (storable : file.IsStorable) (rest : Bytes) :
    read (file.write ++ rest) = .ok (file, rest) := by
  have crcFits : file.crc.toNat < LittleEndian.bound 4 := file.crc.toNat_lt
  have lengthEq : unsigned 8 file.length = file.length := unsigned_natCast storable.length
  have notNegative : ¬ signed 8 file.length < 0 := by
    have read := signed_unsigned storable.length
    rw [lengthEq] at read
    omega
  simp only [read, write, List.append_assoc]
  rw [readText_writeText storable.name, Outcome.ok_bind, readNumber_encode crcFits,
    Outcome.ok_bind, readNumber_writeSigned, Outcome.ok_bind]
  simp only [lengthEq]
  rw [if_neg notNegative, UInt32.ofNat_toNat]
  rfl

theorem write_ne_nil (file : ListedFile) : file.write ≠ [] := by
  simp [write, writeText_ne_nil]

end ListedFile

/-- A list is read up to its end with any number of steps that is enough for its bytes. -/
theorem readFileListWithin_flatMap_write {files : List ListedFile} {fuel : Nat}
    (storable : ∀ file ∈ files, file.IsStorable)
    (enough : (files.flatMap ListedFile.write).length ≤ fuel) :
    readFileListWithin fuel (files.flatMap ListedFile.write) = .ok files := by
  induction files generalizing fuel with
  | nil => cases fuel <;> rfl
  | cons file files ih =>
      obtain ⟨first, others⟩ := List.forall_mem_cons.mp storable
      have taken := List.length_pos_iff.mpr file.write_ne_nil
      rw [List.flatMap_cons, List.length_append] at enough
      obtain ⟨steps, rfl⟩ := Nat.exists_eq_succ_of_ne_zero (show fuel ≠ 0 by omega)
      have further : readFileListWithin steps (files.flatMap ListedFile.write) = .ok files :=
        ih others (by omega)
      rw [List.flatMap_cons, readFileListWithin, if_neg, ListedFile.read_write first,
        Outcome.ok_bind]
      · simp only [further, Outcome.ok_bind]
        rfl
      · simp [file.write_ne_nil]

/-- A list of files is read back from its form up to the end, and a configuration from its form
whatever stands behind it, which is left as it is. -/
theorem records_read_back :
    (∀ files : List ListedFile, (∀ file ∈ files, file.IsStorable) →
      readFileList (files.flatMap ListedFile.write) = .ok files) ∧
    ∀ (config : Config) (rest : Bytes), config.IsStorable →
      Config.read (config.write ++ rest) = .ok (config, rest) :=
  ⟨fun _ storable => readFileListWithin_flatMap_write storable (Nat.le_refl _),
    fun _ rest storable => Config.read_write storable rest⟩

def sampleListing : List ListedFile :=
  [⟨"", 0, 0⟩, ⟨"Meshes\\é.nif", 0xFFFFFFFF, 0x7FFFFFFFFFFFFFFF⟩]

def sampleConfig : Config where
  fileVersion := 1
  name := "Größe"
  majorVersion := -0x80000000
  minorVersion := 0x7FFFFFFF
  author := ""
  email := "a@b"
  website := ""
  description := String.ofList (List.replicate 200 'd')
  creation := .date "1/2/2006"
  compression := .zip

theorem records_read_back_sample :
    readFileList (sampleListing.flatMap ListedFile.write) = .ok sampleListing ∧
      Config.read (sampleConfig.write ++ [7]) = .ok (sampleConfig, [7]) := by
  obtain ⟨listing, configuration⟩ := records_read_back
  refine ⟨listing sampleListing ?_, configuration sampleConfig [7] ?_⟩
  · intro file member
    constructor
    all_goals
      revert file
      decide
  · exact {
      name := by decide
      majorVersion := by decide
      minorVersion := by decide
      author := by decide
      email := by decide
      website := by decide
      description := by decide +kernel
      creation := ⟨by decide, by decide⟩ }

end Omod
end GameArchive
