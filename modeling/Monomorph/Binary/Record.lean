import Monomorph.Binary.Value
import Monomorph.Text.Basic

/-!
# Records in binary values

A record is a map from field names to values. Reading also accepts a list with one item for each
field in order, an empty list or nothing for the blank record, and skips unknown names. Reading
updates a record that may already hold something: when a name comes twice, the later value is read
on top of the earlier one.
-/

namespace Monomorph.Binary

/-- How one field of a record is read on top of the record so far. -/
structure Field (α : Type) where
  name : Text
  read : α → Value → Option α

/-- Reads the value of the field called `name` on top of `r`; unknown names are skipped. -/
def readField {α : Type} (fields : List (Field α)) (r : α) (name : Text) (v : Value) : Option α :=
  match fields.find? fun f => f.name == name with
  | some f => f.read r v
  | none => some r

/-- Reads named entries in order on top of `r`. -/
def readEntries {α : Type} (fields : List (Field α)) (r : α) :
    List (Value × Value) → Option α
  | [] => some r
  | (k, v) :: es =>
    match k.bytes? with
    | none => none
    | some name =>
      match readField fields r name v with
      | none => none
      | some r => readEntries fields r es

/-- Reads items in field order on top of `r`. -/
def readPositional {α : Type} : List (Field α) → α → List Value → Option α
  | [], r, [] => some r
  | f :: fs, r, v :: vs =>
    match f.read r v with
    | none => none
    | some r => readPositional fs r vs
  | _, _, _ => none

def readRecord {α : Type} (blank : α) (fields : List (Field α)) (r : α) : Value → Option α
  | .nil => some blank
  | .arr [] => some blank
  | .arr items => readPositional fields r items
  | .map entries => readEntries fields r entries
  | _ => none

def readPlace {α : Type} (blank : α) (read : α → Value → Option α) (prev : Option α) :
    Value → Option (Option α)
  | .nil => some none
  | v => (read (prev.getD blank) v).map some

/-- Reads items one by one, each on top of the item that stood at its index. Items behind the end of
a shorter list are forgotten. This limits what is modelled: the library of the packed format keeps
them out of sight, and where one name stands three times in a record, first with a long list and then
with a shorter one, it reads the third list on top of items of the first. -/
def readItems {α : Type} (blank : α) (read : α → Value → Option α) (prev : List α) :
    List Value → Option (List α)
  | [] => some []
  | v :: vs =>
    match read (prev.headD blank) v with
    | none => none
    | some x => (readItems blank read prev.tail vs).map (x :: ·)

/-- Reads a list; nothing is a missing list. -/
def readList {α : Type} (blank : α) (read : α → Value → Option α) (prev : List α) (v : Value) :
    Option (Option (List α)) :=
  match v.items? with
  | none => none
  | some none => some none
  | some (some items) => (readItems blank read prev items).map some

/-- Reads a list of texts. Nothing leaves the list that was there. -/
def readTexts (prev : List Text) (v : Value) : Option (List Text) :=
  match v.items? with
  | none => none
  | some none => some prev
  | some (some items) => items.mapM Value.bytes?

def entry (name : String) (v : Value) : Value × Value := (.str (Text.ofString name), v)

/-- An entry that is left out when `omit` holds. -/
def entryUnless (skip : Bool) (name : String) (v : Value) : List (Value × Value) :=
  if skip then [] else [entry name v]

def textItems (ts : List Text) : Value := .arr (ts.map .str)

end Monomorph.Binary
