import QueryBlend.Proofs.DerivedTable.Lines
import QueryBlend.Proofs.Text.Lines
/-!
# The blocks that build derived tables

A block is written by the side that builds the table: it knows the table, its ephemeral names and its
stable view, and writes lines that tell some of this. `BuiltTable` is what that side knows, and
`BuildBlock` is what it writes. The lines of a block may go on behind what they tell, and there may be
any lines between them, as long as none mentions what only one line is to say.

* `ofBlock_text`: the table is read back from its block.
-/
namespace QueryBlend
open Text

/-! ## Names and references -/

/-- A character of the names of models, views and tables. -/
def isNameChar (c : Char) : Bool := isAsciiAlphanumeric c || c == '_'

/-- A character of the names of schemas and projects. -/
def isSchemaChar (c : Char) : Bool := isNameChar c || c == '-'

/-- A character of a reference between its marks. -/
def isPathChar (c : Char) : Bool := isSchemaChar c || c == '.' || c == '$'

def isReferenceChar (c : Char) : Bool := isPathChar c || c == '\x60' || c == '\x22'

/-- The two variants of the ephemeral name of a table. -/
inductive Variant where
  | r
  | c
  deriving DecidableEq, Repr

/-- What the names of a variant start with. -/
def Variant.letters : Variant → List Char
  | r => "LR".toList
  | c => "LC".toList

instance (q : Variant → Prop) [DecidablePred q] : Decidable (∀ v, q v) :=
  decidable_of_iff (q .r ∧ q .c) ⟨fun h v => by cases v <;> simp [h], fun h => ⟨h .r, h .c⟩⟩

/-- A derived table, as it is known where it is built. -/
structure BuiltTable where
  model : List Char
  view : List Char
  schema : List Char
  /-- Empty if references do not name the project. -/
  project : List Char := []
  separator : Char
  /-- The registration key of the connection. -/
  key : List Char
  suffix : List Char
  /-- The mark around references, if there is one. -/
  mark : List Char := []
  model_name : model ≠ [] ∧ model.all isNameChar = true := by decide
  view_name : view ≠ [] ∧ view.all isNameChar = true := by decide
  schema_name : schema ≠ [] ∧ schema.all isSchemaChar = true := by decide
  project_name : project.all isSchemaChar = true := by decide
  separator_mem : separator = '_' ∨ separator = '$' := by decide
  key_name : key.length = 2 ∧ key.all isAsciiAlphanumeric = true := by decide
  suffix_name : suffix ≠ [] ∧ suffix.all isNameChar = true := by decide
  mark_mem : mark = [] ∨ mark = ['\x60'] ∨ mark = ['\x22'] := by decide

namespace BuiltTable

def name (t : BuiltTable) (v : Variant) : List Char :=
  v.letters ++ t.separator :: (t.key ++ t.suffix)

/-- The project, if there is one, the schema and the ephemeral name. -/
def path (t : BuiltTable) (v : Variant) : List Char :=
  (if t.project.isEmpty then [] else t.project ++ ['.']) ++ t.schema ++ '.' :: t.name v

/-- How a query refers to the table. -/
def reference (t : BuiltTable) (v : Variant) : List Char := t.mark ++ t.path v ++ t.mark

def stableName (t : BuiltTable) : List Char :=
  t.schema ++ '.' :: (t.key ++ '_' :: (t.model ++ '_' :: t.view))

/-- All that a block can tell of the table. -/
def derived (t : BuiltTable) : DerivedTable where
  registrationKey := t.key
  model := t.model
  view := t.view
  schema := t.schema
  nameR := t.name .r
  nameC := t.name .c
  stableName := t.stableName
  project := t.project
  quoteMark := t.mark

def buildingLine (t : BuiltTable) (note : List Char) : List Char :=
  "-- Building persistent derived table ".toList ++ (t.model ++ ("::".toList ++ (t.view ++ note)))

def finishedLine (t : BuiltTable) (finished : List Char) (v : Variant) (ending : List Char) :
    List Char :=
  "-- finished ".toList ++ (finished ++ (" => ".toList ++ (t.reference v ++ ending)))

end BuiltTable

def generateLine (announced : List Char) : List Char :=
  "-- generate derived table".toList ++ announced

structure BuildBlock where
  table : BuiltTable
  /-- How the start line goes on. -/
  announced : List Char := []
  /-- How the line that names the model and the view goes on. -/
  note : List Char := []
  /-- The `CREATE TABLE` line and the lines of its query. -/
  inner : List (List Char)
  /-- What the finish line says is finished. -/
  finished : List Char
  built : Variant
  /-- How the finish line goes on. -/
  ending : List Char := []
  no_feed : ∀ l ∈ [announced, note, ending] ++ inner, '\n' ∉ l := by decide +kernel
  note_apart : Stops DerivedTable.isSolid note := by decide +kernel
  ending_apart : Stops DerivedTable.isSolid ending := by decide +kernel
  finished_word : finished ≠ [] ∧ finished.all DerivedTable.isSolid = true := by decide +kernel
  inner_plain : ∀ l ∈ inner, LineKind.ofLine l = .plain := by decide +kernel
  building_once :
    mentions "-- Building persistent derived table ".toList (generateLine announced) = false := by
      decide +kernel
  finished_once : ∀ l ∈ generateLine announced :: table.buildingLine note :: inner,
    mentions "-- finished ".toList l = false := by decide +kernel

namespace BuildBlock

def front (k : BuildBlock) : List (List Char) :=
  generateLine k.announced :: k.table.buildingLine k.note :: k.inner

/-- The finish line. -/
def last (k : BuildBlock) : List Char := k.table.finishedLine k.finished k.built k.ending

def lines (k : BuildBlock) : List (List Char) := k.front ++ [k.last]

def text (k : BuildBlock) : List Char := unlines k.lines

end BuildBlock

/-! ## Classes of characters -/

/-- What holds of the characters of ASCII one by one. -/
theorem of_ascii {q : Char → Prop} (h : ∀ n < 128, q (Char.ofNat n)) {c : Char}
    (hc : c.toNat < 128) : q c := by
  have := h c.toNat hc
  rwa [Char.ofNat_toNat] at this

theorem toNat_lt_of_le {c d : Char} (h : c ≤ d) (hd : d.toNat < 128) : c.toNat < 128 := by
  have : c.toNat ≤ d.toNat := h
  omega

theorem toNat_lt_of_isReferenceChar {c : Char} (h : isReferenceChar c = true) : c.toNat < 128 := by
  simp only [isReferenceChar, isPathChar, isSchemaChar, isNameChar, isAsciiAlphanumeric,
    isAsciiLetter, isAsciiDigit, Bool.or_eq_true, Bool.and_eq_true, decide_eq_true_eq,
    beq_iff_eq] at h
  rcases h with (((((((⟨-, h⟩ | ⟨-, h⟩) | ⟨-, h⟩) | h) | h) | h) | h) | h) | h
  · exact toNat_lt_of_le h (by decide)
  · exact toNat_lt_of_le h (by decide)
  · exact toNat_lt_of_le h (by decide)
  all_goals subst h; decide

theorem isReferenceChar_of_isPathChar {c : Char} (h : isPathChar c = true) :
    isReferenceChar c = true := by
  rw [isReferenceChar, h, Bool.true_or, Bool.true_or]

theorem isPathChar_of_isSchemaChar {c : Char} (h : isSchemaChar c = true) : isPathChar c = true := by
  rw [isPathChar, h, Bool.true_or, Bool.true_or]

theorem isSchemaChar_of_isNameChar {c : Char} (h : isNameChar c = true) : isSchemaChar c = true := by
  rw [isSchemaChar, h, Bool.true_or]

theorem isNameChar_of_isAsciiAlphanumeric {c : Char} (h : isAsciiAlphanumeric c = true) :
    isNameChar c = true := by
  rw [isNameChar, h, Bool.true_or]

/-- A character of a path is no blank and no mark. -/
theorem isPathChar_solid {c : Char} (h : isPathChar c = true) :
    DerivedTable.isSolid c = true ∧ c ≠ '\x60' ∧ c ≠ '\x22' := by
  have hlt := toNat_lt_of_isReferenceChar (isReferenceChar_of_isPathChar h)
  revert h
  exact of_ascii (q := fun c => isPathChar c = true →
    DerivedTable.isSolid c = true ∧ c ≠ '\x60' ∧ c ≠ '\x22') (by decide +kernel) hlt

/-- A character of a name separates nothing. -/
theorem isSchemaChar_ne {c : Char} (h : isSchemaChar c = true) : c ≠ '.' ∧ c ≠ ':' := by
  constructor <;> rintro rfl <;> revert h <;> decide

theorem isKeyChar_of_isAsciiAlphanumeric {c : Char} (h : isAsciiAlphanumeric c = true) :
    DerivedTable.isKeyChar c = true := by
  have hlt := toNat_lt_of_isReferenceChar (isReferenceChar_of_isPathChar (isPathChar_of_isSchemaChar
    (isSchemaChar_of_isNameChar (isNameChar_of_isAsciiAlphanumeric h))))
  revert h
  exact of_ascii (q := fun c => isAsciiAlphanumeric c = true → DerivedTable.isKeyChar c = true)
    (by decide +kernel) hlt

theorem isSuffixChar_of_isNameChar {c : Char} (h : isNameChar c = true) :
    DerivedTable.isSuffixChar c = true := by
  rw [isNameChar, Bool.or_eq_true] at h
  rw [DerivedTable.isSuffixChar, Bool.or_eq_true]
  exact h.imp isKeyChar_of_isAsciiAlphanumeric id

/-- A character of a path is one of a reference without marks. -/
theorem inBareReference_of_isPathChar {c : Char} (h : isPathChar c = true) :
    DerivedTable.inBareReference c = true := by
  obtain ⟨hsolid, h1, h2⟩ := isPathChar_solid h
  simp [DerivedTable.inBareReference, hsolid, h1, h2]

/-! ## Ephemeral names -/

section

variable {separator : Char} {key suffix : List Char} (v : Variant)
  (hsep : separator = '_' ∨ separator = '$') (hkey : key.length = 2 ∧ key.all isAsciiAlphanumeric = true)
  (hsuffix : suffix ≠ [] ∧ suffix.all isNameChar = true)

include hsep hkey hsuffix

theorem find?_ephemeral : DerivedTable.Ephemeral.find? (v.letters ++ separator :: (key ++ suffix)) =
    some ⟨separator, key, suffix⟩ := by
  have hkey' := all_imp hkey.2 isKeyChar_of_isAsciiAlphanumeric
  have hsuffix' := all_imp hsuffix.2 isSuffixChar_of_isNameChar
  cases v <;>
    exact DerivedTable.find?_name (by decide) (by decide) hsep ⟨hkey.1, hkey'⟩ ⟨hsuffix.1, hsuffix'⟩

theorem isPathChar_ephemeral : (v.letters ++ separator :: (key ++ suffix)).all isPathChar = true := by
  have hkey' := all_imp hkey.2 fun h =>
    isPathChar_of_isSchemaChar (isSchemaChar_of_isNameChar (isNameChar_of_isAsciiAlphanumeric h))
  have hsuffix' := all_imp hsuffix.2 fun h => isPathChar_of_isSchemaChar (isSchemaChar_of_isNameChar h)
  have hletters : v.letters.all isPathChar = true := by cases v <;> decide
  have hseparator : isPathChar separator = true := by
    rcases hsep with h | h <;> rw [h] <;> decide
  rw [List.all_append, List.all_cons, List.all_append, hletters, hseparator, hkey', hsuffix']
  rfl

theorem dot_not_mem_ephemeral : '.' ∉ v.letters ++ separator :: (key ++ suffix) := by
  have hkey' := not_mem_of_all hkey.2 (c := '.') (by decide)
  have hsuffix' := not_mem_of_all hsuffix.2 (c := '.') (by decide)
  have hletters : '.' ∉ v.letters := by cases v <;> decide
  have hseparator : '.' ≠ separator := by rcases hsep with h | h <;> rw [h] <;> decide
  simp [hkey', hsuffix', hletters, hseparator]

end

/-! ## What a block says -/

namespace BuiltTable

variable (t : BuiltTable) (v : Variant)

theorem isPathChar_path : (t.path v).all isPathChar = true :=
  DerivedTable.all_parts (by decide) (all_imp t.project_name isPathChar_of_isSchemaChar)
    (all_imp t.schema_name.2 isPathChar_of_isSchemaChar)
    (isPathChar_ephemeral v t.separator_mem t.key_name t.suffix_name)

theorem path_ne_nil : t.path v ≠ [] := by simp [path]

theorem not_mem_dot {s : List Char} (h : s.all isSchemaChar = true) : '.' ∉ s :=
  not_mem_of_all h (by decide)

/-- A path falls into its parts. -/
theorem splitReference_path :
    DerivedTable.splitReference (t.path v) = (t.project, t.schema, t.name v) :=
  DerivedTable.splitReference_parts (not_mem_dot t.project_name) (not_mem_dot t.schema_name.2)
    (dot_not_mem_ephemeral v t.separator_mem t.key_name t.suffix_name)

end BuiltTable

namespace BuildBlock

variable (k : BuildBlock)

theorem text_eq_last : k.text = k.front.flatMap (· ++ ['\n']) ++ k.last := unlines_concat _ _

/-- What follows the line that names the model and the view. -/
def behindBuilding : List Char := '\n' :: (k.inner.flatMap (· ++ ['\n']) ++ k.last)

theorem text_eq_building :
    k.text = [generateLine k.announced].flatMap (· ++ ['\n']) ++
      (k.table.buildingLine k.note ++ k.behindBuilding) := by
  rw [text_eq_last, front, behindBuilding]
  simp only [List.flatMap_cons, List.flatMap_nil, List.append_assoc, List.cons_append,
    List.nil_append]

theorem stops_view : Stops DerivedTable.isSolid (k.note ++ k.behindBuilding) :=
  k.note_apart.append (stops_cons (by decide) _)

theorem isSolid_of_isNameChar {c : Char} (h : isNameChar c = true) :
    DerivedTable.isSolid c = true :=
  (isPathChar_solid (isPathChar_of_isSchemaChar (isSchemaChar_of_isNameChar h))).1

theorem isModelChar_of_isNameChar {c : Char} (h : isNameChar c = true) :
    DerivedTable.isModelChar c = true := by
  rw [DerivedTable.isModelChar, isSolid_of_isNameChar h,
    bne_iff_ne.mpr (isSchemaChar_ne (isSchemaChar_of_isNameChar h)).2]
  rfl

/-- The model and the view are read from the second line. -/
theorem modelAndView?_text :
    DerivedTable.modelAndView? k.text = some (k.table.model, k.table.view) := by
  have honce : ∀ l ∈ [generateLine k.announced],
      mentions "-- Building persistent derived table ".toList l = false :=
    fun l hl => List.mem_singleton.mp hl ▸ k.building_once
  have hmodel := all_imp k.table.model_name.2 isModelChar_of_isNameChar
  have hview := all_imp k.table.view_name.2 isSolid_of_isNameChar
  have hline : k.table.buildingLine k.note ++ k.behindBuilding =
      "-- Building persistent derived table ".toList ++ (k.table.model ++ ("::".toList ++
        (k.table.view ++ (k.note ++ k.behindBuilding)))) := by
    unfold BuiltTable.buildingLine
    simp only [List.append_assoc]
  rw [text_eq_building, hline]
  exact DerivedTable.modelAndView?_lines honce ⟨k.table.model_name.1, hmodel⟩
    ⟨k.table.view_name.1, hview⟩ k.stops_view

/-- The reference is read from the last line. -/
theorem builtReference?_text :
    DerivedTable.builtReference? k.text = some (k.table.mark, k.table.path k.built) :=
  k.text_eq_last ▸ DerivedTable.builtReference?_lines k.finished_once k.finished_word k.table.mark_mem
    ⟨k.table.path_ne_nil k.built, all_imp (k.table.isPathChar_path k.built) inBareReference_of_isPathChar⟩
    k.ending_apart

/-- **Reading a block back.** What is read from a block is what is known where it is written. -/
theorem ofBlock_text : DerivedTable.ofBlock k.text = k.table.derived := by
  have hname := find?_ephemeral k.built k.table.separator_mem k.table.key_name k.table.suffix_name
  rw [DerivedTable.ofBlock_eq k.modelAndView?_text k.builtReference?_text
    (k.table.splitReference_path k.built) k.table.schema_name.1 hname]
  rfl

end BuildBlock
end QueryBlend
