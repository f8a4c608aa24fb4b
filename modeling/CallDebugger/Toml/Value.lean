/-!
# TOML values

A TOML document is a table: keys with their values. A table remembers how it came to be, because
that decides who may still add to it; `Toml.Table.change?` goes along a path of keys under these
rules, and `Toml.Table.define?` adds one value.
-/

namespace CallDebugger

/-- How a table of a document came to be. -/
inductive Standing where
  /-- Written out between braces. Nothing can be added. -/
  | inline
  /-- Opened by a header of its own, or the document itself. -/
  | header
  /-- Only passed by the headers of other tables. -/
  | passed
  /-- Made by a dotted key. -/
  | dotted
deriving Repr, DecidableEq, Inhabited

/-- A TOML value. -/
inductive Toml where
  | string (text : String)
  | integer (value : Int)
  /-- A floating-point number: its digits without a point and the power of ten that they are
  multiplied by, or `inf` or `nan`. -/
  | float (literal : String)
  | boolean (value : Bool)
  /-- A date, a time or both, in the standard form. -/
  | moment (text : String)
  /-- Items; `ofTables` if they are tables that headers in double brackets open, and then the last
  one comes first. -/
  | array (ofTables : Bool) (items : List Toml)
  | table (standing : Standing) (entries : List (String × Toml))
deriving Repr, Inhabited

namespace Toml

/-- The least number above the integers of 64 bits. -/
def integerBound : Int := 9223372036854775808

/-- The items of an array from the first to the last one. -/
def items? : Toml → Option (List Toml)
  | .array ofTables items => some (if ofTables then items.reverse else items)
  | _ => none

/-- Keys with their values. -/
abbrev Table := List (String × Toml)

namespace Table

/-- Gives a key a value, in the place of the one that it has. -/
def set (t : Table) (key : String) (value : Toml) : Table :=
  match t with
  | [] => [(key, value)]
  | (k, v) :: rest => if k = key then (k, value) :: rest else (k, v) :: set rest key value

/-- A key that was set has the value that it was set to. -/
@[simp] theorem lookup_set_self (t : Table) (key : String) (value : Toml) :
    (t.set key value).lookup key = some value := by
  induction t with
  | nil => simp [set]
  | cons e t ih =>
    obtain ⟨k, v⟩ := e
    by_cases h : k = key
    · simp [set, h]
    · have : (key == k) = false := by simpa using fun h' => h h'.symm
      simp [set, h, List.lookup_cons, this, ih]

/-- Setting a key changes no other one. -/
theorem lookup_set_of_ne (t : Table) {key other : String} (value : Toml) (h : other ≠ key) :
    (t.set key value).lookup other = t.lookup other := by
  have hb : (other == key) = false := by simpa using h
  induction t with
  | nil => simp [set, List.lookup_cons, hb]
  | cons e t ih =>
    obtain ⟨k, v⟩ := e
    by_cases hk : k = key
    · subst hk
      simp [set, List.lookup_cons, hb]
    · by_cases ho : other = k
      · simp [set, hk, ho]
      · have : (other == k) = false := by simpa using ho
        simp [set, hk, List.lookup_cons, this, ih]

/-- Changes the table that a path of keys leads to from a table of the given standing. Tables that
are missing on the way are made. A header passes every table that is not written between braces, and
enters the last of an array of tables; a dotted key does not pass a table that has a header. -/
def change? (dotted : Bool) (f : Standing → Table → Option (Standing × Table)) :
    List String → Standing → Table → Option (Standing × Table)
  | [], standing, t => f standing t
  | key :: path, standing, t =>
    match t.lookup key with
    | none =>
      (change? dotted f path (if dotted then .dotted else .passed) []).map fun (s, inner) =>
        (standing, t.set key (.table s inner))
    | some (.table .inline _) => none
    | some (.table s inner) =>
      if dotted && s = .header then none
      else
        (change? dotted f path s inner).map fun (s, inner) =>
          (standing, t.set key (.table s inner))
    | some (.array true (.table s inner :: before)) =>
      (change? dotted f path s inner).map fun (s, inner) =>
        (standing, t.set key (.array true (.table s inner :: before)))
    | some _ => none

/-- Adds a value under a dotted key to a table of the given standing. The key must be new, and a
dotted key ends in a table that dotted keys made. -/
def define? (path : List String) (value : Toml) (standing : Standing) (t : Table) :
    Option (Standing × Table) :=
  match path.getLast? with
  | none => none
  | some key =>
    let way := path.dropLast
    change? true (fun s inner =>
      if decide (s = .dotted) = way.isEmpty then none
      else if (inner.lookup key).isSome then none
      else some (s, inner ++ [(key, value)])) way standing t

/-- Opens the table of a header. It must be new, or only passed so far; then it moves behind the
other keys. -/
def openTable? (path : List String) (t : Table) : Option Table :=
  match path.getLast? with
  | none => none
  | some key =>
    (change? false (fun s inner =>
      match inner.lookup key with
      | none => some (s, inner ++ [(key, .table .header [])])
      | some (.table .passed old) =>
        some (s, inner.filter (·.1 ≠ key) ++ [(key, .table .header old)])
      | some _ => none) path.dropLast .header t).map (·.2)

/-- Opens a further table of the array of tables that a header in double brackets names. -/
def openElement? (path : List String) (t : Table) : Option Table :=
  match path.getLast? with
  | none => none
  | some key =>
    (change? false (fun s inner =>
      match inner.lookup key with
      | none => some (s, inner ++ [(key, .array true [.table .header []])])
      | some (.array true items) =>
        some (s, inner.set key (.array true (.table .header [] :: items)))
      | some _ => none) path.dropLast .header t).map (·.2)

end Table

end Toml

end CallDebugger
