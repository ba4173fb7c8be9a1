/-!
# Plain data

What a settings file, a form-data file or a report holds before it is given a meaning: texts,
numbers, lists and records. The readers of JSON and TOML produce these values and the report
printer writes them; the types of the library are decoded from them and encoded into them.

A record keeps its members in the order of the text, repeated names included, because a repeated
name is an error for some types and an overwriting for others.
-/

namespace Filing.Data

/-- A value of a data file. -/
inductive Value where
  /-- The absent value. -/
  | null
  /-- A truth value. -/
  | bool (b : Bool)
  /-- A whole number, written without fraction or exponent. -/
  | integer (n : Int)
  /-- Any other scalar (a number with fraction or exponent, a date), as it was written. -/
  | literal (text : String)
  /-- A text. -/
  | string (s : String)
  /-- A quoted text (or a record with a name) whose escapes leave half of a surrogate pair alone:
  well formed as data, but not a text. -/
  | unpaired
  /-- A list of values. -/
  | list (items : List Value)
  /-- Named values, in the order of the text. -/
  | record (members : List (String × Value))

namespace Value

instance : Inhabited Value := ⟨.null⟩

/-- A natural number. -/
def nat (n : Nat) : Value := .integer n

/-- A list of texts. -/
def strings (l : List String) : Value := .list (l.map .string)

/-- A text, or the absent value. -/
def optional : Option String → Value
  | none => .null
  | some s => .string s

/-- A value made from an optional one, or the absent value. -/
def option {α : Type} (f : α → Value) : Option α → Value
  | none => .null
  | some a => f a

/-- The text of a text value. -/
def string? : Value → Option String
  | .string s => some s
  | _ => none

/-- The truth value. -/
def bool? : Value → Option Bool
  | .bool b => some b
  | _ => none

/-- A natural number of at most `limit`. -/
def nat? (limit : Nat) : Value → Option Nat
  | .integer n => if 0 ≤ n ∧ n ≤ limit then some n.toNat else none
  | _ => none

/-- The items of a list. -/
def items? : Value → Option (List Value)
  | .list l => some l
  | _ => none

/-- The members of a record. -/
def members? : Value → Option (List (String × Value))
  | .record m => some m
  | _ => none

/-- A list each of whose items decodes. -/
def listOf? {α : Type} (decode : Value → Option α) (v : Value) : Option (List α) :=
  v.items?.bind (·.mapM decode)

/-- The last member with a name: a later member overwrites an earlier one. -/
def member? (v : Value) (name : String) : Option Value :=
  v.members?.bind fun m => (m.reverse.find? (·.1 == name)).map (·.2)

end Value

/-! ## Records of a fixed shape -/

/-- How strictly a record of a fixed shape is read. -/
structure Strictness where
  /-- A name outside the shape is an error rather than ignored. -/
  knownNamesOnly : Bool
  /-- A list that stands for the record may be longer than the shape. -/
  surplusItems : Bool

/-- The values of the named fields, in the order of `names`. A record gives each field at most once;
a list gives the fields by position, the missing last ones being absent. -/
def fields? (strict : Strictness) (names : List String) : Value → Option (List (Option Value))
  | .record members =>
    let known := members.filter (names.contains ·.1)
    if strict.knownNamesOnly && known.length != members.length then none
    else if ((known.map (·.1)).eraseDups).length != known.length then none
    else some (names.map fun name => (known.find? (·.1 == name)).map (·.2))
  | .list items =>
    if items.length > names.length && !strict.surplusItems then none
    else some (names.mapIdx fun i _ => items[i]?)
  | _ => none

/-- The value of an optional field: the default when absent, an error when it does not decode. -/
def field? {α : Type} (decode : Value → Option α) (default : α) : Option Value → Option α
  | none => some default
  | some v => decode v

end Filing.Data
