import RuleCanvas.Fault
import RuleCanvas.Form.Reader
import RuleCanvas.Json.Parser

/-! # The type catalog

The table of variables that rules may read, in display order. Every entry has a key of its own and a
concrete type. A key that is missing has the type `any`, so that rules with unknown variables stay
connectable.
-/

namespace RuleCanvas

namespace Catalog

structure Entry where
  label : String
  key : String
  type : ValueType
  type_ne_any : type ≠ .any
  key_ne_empty : key ≠ ""

end Catalog

/-- The variables in display order. -/
structure Catalog where
  entries : List Catalog.Entry
  keys_nodup : (entries.map (·.key)).Nodup

namespace Catalog

def find? (c : Catalog) (key : String) : Option Entry := c.entries.find? fun e => e.key == key

def contains (c : Catalog) (key : String) : Bool := (c.find? key).isSome

/-- The declared type of a key, `any` for a key that is missing. -/
def typeOf (c : Catalog) (key : String) : ValueType :=
  match c.find? key with
  | some e => e.type
  | none => .any

def defaultKey? (c : Catalog) : Option String := c.entries.head?.map (·.key)

def size (c : Catalog) : Nat := c.entries.length

/-- The variables of the attendance rules. -/
def attendance : Catalog where
  entries := [
    ⟨"Minutes Late", "minutes_late", .number, by decide, by decide⟩,
    ⟨"Total Hours", "total_hours", .number, by decide, by decide⟩,
    ⟨"Total Hours Today", "total_hours_today", .number, by decide, by decide⟩,
    ⟨"First Check-in Hour", "first_time_in_hour", .number, by decide, by decide⟩,
    ⟨"Last Check-out Hour", "last_time_out_hour", .number, by decide, by decide⟩,
    ⟨"Is First Session", "is_first_session", .boolean, by decide, by decide⟩]
  keys_nodup := by decide

/-! ## Reading -/

open Form

/-- A key that is more than blanks. -/
def readKey : Reader { key : String // key ≠ "" } := fun v =>
  match string v with
  | .error issues => .error issues
  | .ok key =>
    if h : key = "" then fail (.ruleBroken "catalog key cannot be empty")
    else if key.toList.all Text.isBlank then fail (.ruleBroken "catalog key cannot be empty")
    else .ok ⟨key, h⟩

/-- A type that a variable can declare. -/
def readType : Reader { type : ValueType // type ≠ .any } := fun v =>
  match word ValueType.ofName? v with
  | .error issues => .error issues
  | .ok type =>
    if h : type = .any then
      fail (.ruleBroken "catalog variables must declare number, boolean or string")
    else .ok ⟨type, h⟩

def readEntry : Reader Entry := model .modelType fun members =>
  (both (both (required "label" "label" string members) (required "key" "key" readKey members))
    (required "type" "type" readType members)).map fun ((label, key), type) =>
      ⟨label, key.1, type.1, type.2, key.2⟩

/-- The first key that is repeated, at its second place. -/
def repeatedKey? (seen : List String) : List Entry → Option String
  | [] => none
  | e :: rest => if seen.contains e.key then some e.key else repeatedKey? (e.key :: seen) rest

/-- The catalog of a list of entries, if all keys differ. -/
def ofEntries (entries : List Entry) : Except Fault Catalog :=
  if h : (entries.map (·.key)).Nodup then .ok ⟨entries, h⟩
  else .error (.badValue ("Duplicate catalog key '" ++ (repeatedKey? [] entries).getD "" ++ "'"))

/-- The catalog of a list of records with a label, a key and a type each. -/
def ofRecords (records : Json) : Except Fault Catalog :=
  match list readEntry records with
  | .ok entries => ofEntries entries
  | .error issues => .error (.invalid issues)

def ofText (text : String) : Except Fault Catalog :=
  match Json.parse? text with
  | some records => ofRecords records
  | none => .error .notJson

/-- The catalog of a file, or the built-in one where no file is named; `contents` looks
up the text of a file. -/
def load (contents : String → Option String) (file : Option String) : Except Fault Catalog :=
  match file with
  | none => .ok attendance
  | some path =>
    if path = "" then .ok attendance
    else
      match contents path with
      | some text => ofText text
      | none => .error .noSuchFile

end Catalog

end RuleCanvas
