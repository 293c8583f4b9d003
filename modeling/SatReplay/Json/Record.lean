/-
  SatReplay/Json/Record.lean
  ==========================
  **Reading records.**  A record is written as an object with its fields in any
  order, or as an array of its fields in their order.  An object may have more
  members; they are passed over.  A field may not be there twice, and of missing
  fields the first one in their order is named.
-/
import SatReplay.Json.Reader

namespace SatReplay.Json

/-- A field of a record that is read into drafts of type `σ`. -/
structure Field (σ : Type) where
  name : String
  isSet : σ → Bool
  /-- Reads the value of the field into a draft. -/
  read : Nat → σ → Scan σ

/-- A field that is read by a reader of its type. -/
def Field.of {σ α : Type} (name : String) (reader : Reader α) (get : σ → Option α)
    (set : α → σ → σ) : Field σ where
  name := name
  isSet draft := (get draft).isSome
  read depth draft cs := (reader depth cs).map fun (a, rest) => (set a draft, rest)

/-- A record of type `α`, put together from a draft. -/
structure Record (σ α : Type) where
  name : String
  fields : List (Field σ)
  blank : σ
  /-- The record of a draft, or the first field that is missing. -/
  complete : σ → Except String α

/-- The end of an array of which everything has been read. -/
def takeArrayEnd (cs : List Char) : Except Stop (List Char) :=
  match dropBlanks cs with
  | [] => broken .endInArray []
  | ']' :: rest => .ok rest
  | ',' :: rest =>
    match dropBlanks rest with
    | ']' :: rest => broken .trailingComma (']' :: rest)
    | rest => broken .trailingText rest
  | rest => broken .trailingText rest

/-- What follows the blanks here, and the end of an object if it is there. -/
def dropObjectEnd (cs : List Char) : List Char :=
  match dropBlanks cs with
  | '\x7d' :: rest => rest
  | rest => rest

namespace Record

variable {σ α : Type}

/-- Reads members up to the end of the object, in as many steps as there are
    characters. -/
def membersInto (r : Record σ α) (depth : Nat) : Nat → Bool → σ → Scan σ
  | 0, _, _, _ => broken .endInObject []
  | steps + 1, first, draft, cs =>
    match nextMember first cs with
    | .error stop => .error stop
    | .ok (.ended rest) => .ok (draft, rest)
    | .ok (.named name rest) =>
      match r.fields.find? (·.name = name) with
      | none =>
        match takeColon rest with
        | .error stop => .error stop
        | .ok rest =>
          match skipValue rest with
          | .error stop => .error stop
          | .ok rest => membersInto r depth steps false draft rest
      | some field =>
        if field.isSet draft then refuse (.duplicateField name) (dropObjectEnd rest)
        else
          match takeColon rest with
          | .error stop => .error stop
          | .ok rest =>
            match field.read depth draft rest with
            | .error stop => .error stop
            | .ok (draft, rest) => membersInto r depth steps false draft rest

/-- Reads the items of an array as the fields in their order; `count` have been
    read. -/
def itemsInto (r : Record σ α) (depth : Nat) (count : Nat) : List (Field σ) → σ → Scan σ
  | [], draft, cs => (takeArrayEnd cs).map (draft, ·)
  | field :: fields, draft, cs =>
    match nextItem (count = 0) cs with
    | .error stop => .error stop
    | .ok (.ended rest) => refuse (.wrongLength count r.name r.fields.length) rest
    | .ok (.part rest) =>
      match field.read depth draft rest with
      | .error stop => .error stop
      | .ok (draft, rest) => itemsInto r depth (count + 1) fields draft rest

def finish (r : Record σ α) (draft : σ) (rest : List Char) : Except Stop (α × List Char) :=
  match r.complete draft with
  | .ok a => .ok (a, rest)
  | .error name => refuse (.missingField name) rest

/-- Reads an array or object that has been opened. -/
def readWith (r : Record σ α) (draft : Scan σ) : Scan α := fun cs =>
  match draft cs with
  | .error stop => .error stop
  | .ok (draft, rest) => r.finish draft rest

def reader (r : Record σ α) : Reader α := fun depth cs =>
  match Found.read cs with
  | .error stop => .error stop
  | .ok (.sequence, rest) =>
    inside (fun depth => r.readWith (r.itemsInto depth 0 r.fields r.blank)) depth rest
  | .ok (.map, rest) =>
    inside (fun depth => r.readWith (r.membersInto depth (rest.length + 1) true r.blank)) depth rest
  | .ok (found, rest) => Reader.mistyped (.record r.name) found rest

end Record

/-- The value of a field that must be there. -/
def required {α : Type} (name : String) : Option α → Except String α
  | some a => .ok a
  | none => .error name

end SatReplay.Json
