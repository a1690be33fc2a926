/-
Tables of names.  A name stands at the place that its code asks for, or at the
next one that is free.  A table of more than eight places is kept at least an
eighth empty and a smaller one by one place; where that leaves no room for
another name the table doubles, and its names are placed anew in their order.
-/

namespace TwinObject

namespace NameCode

/-- Mix a word into a code. -/
def mix (code word : UInt64) : UInt64 :=
  ((code <<< 5 ||| code >>> 59) ^^^ word) * 0x517cc1b727220a95

/-- The word whose bytes are given, the lowest first. -/
def word (bytes : List UInt8) : UInt64 :=
  bytes.foldr (fun b w => w <<< 8 ||| b.toUInt64) 0

/-- A number of bytes is read as words of eight bytes, and the rest of it as at
most one each of four, two and one. -/
def widths (count : Nat) : List Nat :=
  List.replicate (count / 8) 8 ++ [4, 2, 1].filter fun k => count / k % 2 = 1

/-- Mix words of the given widths into a code. -/
def mixAll : UInt64 → List Nat → List UInt8 → UInt64
  | code, [], _ => code
  | code, k :: ks, bytes => mixAll (mix code (word (bytes.take k))) ks (bytes.drop k)

/-- The code of a name: its bytes, and a mark of its end. -/
def ofName (name : String) : UInt64 :=
  let bytes := name.toUTF8.toList
  mix (mixAll 0 (widths bytes.length) bytes) 0xff

end NameCode

/-- The names in a table, by place. -/
structure NameTable where
  places : List (Option String) := []
deriving DecidableEq, Repr, Inhabited

namespace NameTable

/-- A table of empty places. -/
def blank (count : Nat) : NameTable :=
  ⟨List.replicate count none⟩

/-- The smallest table that takes a number of names. -/
def withRoom (count : Nat) : NameTable :=
  if count = 0 then {}
  else if count < 4 then blank 4
  else if count < 8 then blank 8
  else blank (count * 8 / 7).nextPowerOfTwo

/-- The names in the order of their places. -/
def names (t : NameTable) : List String :=
  t.places.filterMap id

/-- How many names a table takes. -/
def room (t : NameTable) : Nat :=
  if t.places.length ≤ 8 then t.places.length - 1 else t.places.length / 8 * 7

def contains (t : NameTable) (name : String) : Bool :=
  t.places.contains (some name)

/-- The place of a name, which is the number of places for a name that has
none. -/
def placeOf (t : NameTable) (name : String) : Nat :=
  t.places.findIdx (· == some name)

/-- The places in the order in which they are tried for a name. -/
def trials (t : NameTable) (name : String) : List Nat :=
  let count := t.places.length
  (List.range count).map fun k => ((NameCode.ofName name).toNat + k) % count

/-- Put a name at the first free place. -/
def place (t : NameTable) (name : String) : NameTable :=
  match (t.trials name).find? (fun i => t.places[i]? = some none) with
  | some i => ⟨t.places.set i (some name)⟩
  | none => t

/-- A table of twice as many places. -/
def doubled (t : NameTable) : NameTable :=
  t.names.foldl place (blank (max 4 (2 * t.places.length)))

/-- Add a name.  Room for one is made even if the name is there already. -/
def add (t : NameTable) (name : String) : NameTable :=
  let t := if t.names.length < t.room then t else t.doubled
  if t.contains name then t else t.place name

end NameTable

end TwinObject
