import GameArchive.Json.Basic

/-!
# Records in JSON

A record is written as an object, whose members may stand in any order among members that do not
belong to it, or as an array with its fields in order.  A record of one of several kinds names its
kind, in the tag among its members or in the first item.
-/

namespace GameArchive
namespace Json

/-- The fields of a record as they are written. -/
inductive Fields where
  | named (members : List (Option String × Json))
  | ordered (items : List Json)

/-- The value of a member that may be there once. -/
def member? (key : String) (members : List (Option String × Json)) : Option (Option Json) :=
  match members.filter fun (found, _) => found = some key with
  | [] => some none
  | [(_, value)] => some (some value)
  | _ => none

/-- The values of a record with the given fields, where every field may be missing. -/
def Fields.optionalValues? (names : List String) : Fields → Option (List (Option Json))
  | named members =>
      if members.all fun (key, _) => key.isSome then
        names.mapM fun name => member? name members
      else
        none
  | ordered items =>
      if items.length ≤ names.length then
        some (items.map some ++ List.replicate (names.length - items.length) none)
      else
        none

def Fields.values? (names : List String) (fields : Fields) : Option (List Json) := do
  let values ← fields.optionalValues? names
  values.mapM id

def fields? : Json → Option Fields
  | object members => some (.named members)
  | array items => some (.ordered items)
  | _ => none

def tagged? (tag : String) (value : Json) : Option (String × Fields) :=
  if value.isSound then
    match value with
    | object members => do
        let kind ← (← member? tag members).bind text?
        pure (kind, .named (members.filter fun (key, _) => key ≠ some tag))
    | array (first :: items) => do
        let kind ← first.text?
        pure (kind, .ordered items)
    | _ => none
  else
    none

/-- The name of a choice without contents: a text, or the key of an object whose only member is
empty. -/
def choice? : Json → Option String
  | text value => value
  | object [(key, null)] => key
  | object [(key, object [])] => key
  | _ => none

end Json
end GameArchive
