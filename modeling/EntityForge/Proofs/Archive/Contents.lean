import EntityForge.Archive.Read
import Mathlib.Algebra.GroupWithZero.Nat

/-!
# The contents of archives

An item is what stands in an archive for one entry: its bytes, and the error that follows them if
they do not come to an end. `Contents` is a whole archive, of which some entries do not open. A
reader asks an item for a number of bytes (`Item.read`) and meets the error only if it asks for more
bytes than stand before it.
-/

namespace EntityForge.Archive

/-- An entry as it stands in an archive. -/
structure Item where
  name : String
  isDirectory : Bool
  /-- The number of bytes that the archive declares. -/
  size : UInt64
  bytes : ByteArray
  /-- The error that follows the bytes, if there is one in the place of their end. -/
  failure : Option ReadError

namespace Item

/-- The first `n` bytes, or all if there are fewer; fails if the error comes before. -/
def read (i : Item) (n : UInt64) : Except ReadError ByteArray :=
  if n.toNat ≤ i.bytes.size then .ok (i.bytes.extract 0 n.toNat)
  else
    match i.failure with
    | some e => .error e
    | none => .ok i.bytes

/-- The entry that a reader gets. -/
def entry (i : Item) : Entry :=
  ⟨i.name, i.isDirectory, i.size, i.read⟩

/-- An entry with the bytes of a stream is that of an item. -/
theorem entry_ofStream (name : String) (isDirectory : Bool) (size : UInt64) (s : ByteStream) :
    Entry.ofStream name isDirectory size s =
      entry ⟨name, isDirectory, size, s.bytes, if s.fails then some .corruptData else none⟩ := by
  refine congrArg (Entry.mk name isDirectory size) (funext fun n => ?_)
  rw [ByteStream.read, read]
  cases s.fails <;> rfl

end Item

/-- The entries of an archive, of which some do not open. -/
abbrev Contents := List (Except ZipError Item)

namespace Contents

/-- The item of an entry that opens and is not a directory. -/
def file? : Except ZipError Item → Option Item
  | .ok i => if i.isDirectory then none else some i
  | .error _ => none

/-- The items that are not directories. -/
def files (c : Contents) : List Item :=
  c.filterMap file?

/-- How many bytes the files have together. -/
def size (c : Contents) : Nat :=
  (c.files.map (·.bytes.size)).sum

/-- The names and bytes of the files. -/
def filesWithBytes (c : Contents) : List (String × ByteArray) :=
  c.files.map fun i => (i.name, i.bytes)

/-- The entries that a reader gets. -/
def entries (c : Contents) : List (Except ZipError Entry) :=
  c.map (·.map Item.entry)

variable (before after : Contents)

@[simp] theorem length_entries (c : Contents) : c.entries.length = c.length :=
  List.length_map ..

theorem files_append : files (before ++ after) = before.files ++ after.files :=
  List.filterMap_append ..

theorem size_append : size (before ++ after) = before.size + after.size := by
  rw [size, files_append, List.map_append, List.sum_append]
  rfl

section
variable {i : Item} (rest : Contents)

theorem files_cons_file (h : i.isDirectory = false) : files (.ok i :: rest) = i :: rest.files := by
  rw [files, List.filterMap_cons, file?, h]
  rfl

theorem files_cons_directory (h : i.isDirectory = true) : files (.ok i :: rest) = rest.files := by
  rw [files, List.filterMap_cons, file?, h]
  rfl

theorem size_cons_file (h : i.isDirectory = false) :
    size (.ok i :: rest) = i.bytes.size + rest.size := by
  rw [size, files_cons_file rest h, List.map_cons, List.sum_cons]
  rfl

theorem size_cons_directory (h : i.isDirectory = true) : size (.ok i :: rest) = rest.size := by
  rw [size, files_cons_directory rest h]
  rfl

end

end Contents

end EntityForge.Archive
