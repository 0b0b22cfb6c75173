import QueryBlend.Proofs.DerivedTable.BuildBlock
import QueryBlend.Proofs.Text.Lines
import QueryBlend.Proofs.Text.Seams
/-!
# Blocks in any surroundings

The names that a block tells need not be plain: only blanks, and what separates names or marks them, cannot
be in them. `AnnouncedTable` has such names, and `Announcement` puts the two lines that tell them between
any other text that does not itself say what only these lines are to say.

There is one way for the surroundings to say it together with a name: a view that ends in `--` and a first
line that goes on with `finished` read as the start of a finish line (`RunsOver`). Nothing else reaches over
a seam, since the fixed words in front of the names cannot start it (`clashes`) and names have no blanks
(`infix_word_append_iff`).

Results:
* `mentions_namesLine_iff`: the line that names the model and the view mentions a finish line exactly if
  what follows the view does, or the two run over into one.
* `ofBlock_announcement`: unless they do, all that is announced is read back.
* `ofBlock_runsOver`: where they do, it need not be.
-/
namespace QueryBlend
open Text DerivedTable

/-- A character of a project or a schema in a reference. -/
def isPartChar (c : Char) : Bool := c != '.' && inBareReference c

/-- What stands between the letters of a variant and the key. -/
def IsSeparator (c : Char) : Prop := c = '_' ∨ c = '$'

instance (c : Char) : Decidable (IsSeparator c) := inferInstanceAs (Decidable (_ ∨ _))

/-- A derived table with all the names that the lines of a block can carry. -/
structure AnnouncedTable where
  model : List Char
  view : List Char
  schema : List Char
  /-- Empty if references do not name the project. -/
  project : List Char := []
  separator : Char
  key : List Char
  suffix : List Char
  mark : List Char := []
  model_word : model ≠ [] ∧ model.all isModelChar = true := by decide
  view_word : view ≠ [] ∧ view.all isSolid = true := by decide
  schema_part : schema ≠ [] ∧ schema.all isPartChar = true := by decide
  project_part : project.all isPartChar = true := by decide
  separator_mem : IsSeparator separator := by decide
  key_name : key.length = 2 ∧ key.all isAsciiAlphanumeric = true := by decide
  suffix_name : suffix ≠ [] ∧ suffix.all isNameChar = true := by decide
  mark_mem : IsMark mark := by decide

namespace AnnouncedTable

def name (t : AnnouncedTable) (v : Variant) : List Char :=
  v.letters ++ t.separator :: (t.key ++ t.suffix)

/-- The project, if there is one, the schema and the ephemeral name. -/
def path (t : AnnouncedTable) (v : Variant) : List Char :=
  (if t.project.isEmpty then [] else t.project ++ ['.']) ++ t.schema ++ '.' :: t.name v

/-- All that is announced of the table. -/
def derived (t : AnnouncedTable) : DerivedTable where
  registrationKey := t.key
  model := t.model
  view := t.view
  schema := t.schema
  nameR := t.name .r
  nameC := t.name .c
  stableName := t.schema ++ '.' :: (t.key ++ '_' :: (t.model ++ '_' :: t.view))
  project := t.project
  quoteMark := t.mark

def namesLine (t : AnnouncedTable) (note : List Char) : List Char :=
  "-- Building persistent derived table ".toList ++ (t.model ++ ("::".toList ++ (t.view ++ note)))

def placeLine (t : AnnouncedTable) (v : Variant) (ending : List Char) : List Char :=
  "-- finished ".toList ++
    (t.view ++ (" => ".toList ++ (t.mark ++ t.path v ++ t.mark ++ ending)))

/-- The view and what follows it read together as the start of a finish line. -/
def RunsOver (t : AnnouncedTable) (note : List Char) : Prop :=
  "--".toList <:+ t.view ∧ " finished ".toList <+: note.map fold

instance (t : AnnouncedTable) (note : List Char) : Decidable (t.RunsOver note) :=
  inferInstanceAs (Decidable (_ ∧ _))

end AnnouncedTable

/-- A block that announces a table, whatever else is in it. -/
structure Announcement where
  table : AnnouncedTable
  built : Variant
  /-- The lines in front. -/
  front : List (List Char) := []
  /-- How the line that names the model and the view goes on. -/
  note : List Char := []
  between : List (List Char) := []
  /-- How the finish line goes on. -/
  ending : List Char := []
  behind : List (List Char) := []
  note_apart : Stops isSolid note := by decide +kernel
  ending_apart : Stops isSolid ending := by decide +kernel
  building_once : ∀ l ∈ front, mentions "-- Building persistent derived table ".toList l = false := by
    decide +kernel
  finished_once : ∀ l ∈ front ++ note :: between, mentions "-- finished ".toList l = false := by
    decide +kernel

namespace Announcement

def text (k : Announcement) : List Char :=
  unlines (k.front ++ k.table.namesLine k.note :: (k.between ++ k.table.placeLine k.built k.ending ::
    k.behind))

end Announcement

/-! ## What is announced -/

namespace AnnouncedTable

variable (t : AnnouncedTable) (v : Variant) {note : List Char}

theorem not_mem_dot {s : List Char} (h : s.all isPartChar = true) : '.' ∉ s :=
  not_mem_of_all h (by decide)

theorem inBareReference_path : (t.path v).all inBareReference = true := by
  have hpart {c : Char} (h : isPartChar c = true) : inBareReference c = true :=
    (Bool.and_eq_true_iff.mp h).2
  have hname := isPathChar_ephemeral v t.separator_mem t.key_name t.suffix_name
  exact all_parts (by decide) (all_imp t.project_part hpart) (all_imp t.schema_part.2 hpart)
    (all_imp hname inBareReference_of_isPathChar)

theorem splitReference_path : splitReference (t.path v) = (t.project, t.schema, t.name v) :=
  splitReference_parts (not_mem_dot t.project_part) (not_mem_dot t.schema_part.2)
    (dot_not_mem_ephemeral v t.separator_mem t.key_name t.suffix_name)

/-- The names in the line of the model and the view. -/
def names (t : AnnouncedTable) : List Char := t.model ++ "::".toList ++ t.view

theorem namesLine_eq :
    t.namesLine note = "-- Building persistent derived table ".toList ++ (t.names ++ note) := by
  unfold namesLine names
  simp only [List.append_assoc]

/-- There are no blanks between the fixed words and the note. -/
theorem isSolid_names : (t.names.map fold).all isSolid = true := by
  have hmodel := all_imp t.model_word.2 fun h => (Bool.and_eq_true_iff.mp h).2
  have hnames : t.names.all isSolid = true := by
    rw [names, List.all_append, List.all_append, hmodel, t.view_word.2]
    decide
  rw [List.all_map]
  exact all_imp hnames fun h => by rwa [Function.comp_apply, isSolid, isBlank_fold]

/-- Two hyphens at the end of the names are in the view: in front of it there are colons. -/
theorem hyphens_suffix_iff : "--".toList <:+ t.names ↔ "--".toList <:+ t.view := by
  refine ⟨fun h => ?_, fun h => h.trans (List.suffix_append _ _)⟩
  rcases suffix_append_cases h with h | ⟨y, hy, hne, x, hx⟩
  · exact h
  · have hlast : (x ++ y).getLast? = some ':' := by
      rw [hx, List.getLast?_append_of_ne_nil _ (by decide)]
      rfl
    rw [List.getLast?_append_of_ne_nil _ hne] at hlast
    have hmem : ':' ∈ "--".toList := hy ▸ List.mem_append_left _ (List.mem_of_getLast? hlast)
    exact absurd hmem (by decide)

/-- The line that names the model and the view mentions a finish line exactly if what follows the view
does, or if the two run over into one. -/
theorem mentions_namesLine_iff (hnote : Stops isSolid note) :
    mentions "-- finished ".toList (t.namesLine note) = true ↔
      mentions "-- finished ".toList note = true ∨ t.RunsOver note := by
  have hstop : Stops isSolid (note.map fold) := by
    intro c hc
    obtain ⟨d, hd, rfl⟩ := Option.map_eq_some_iff.mp (List.head?_map ▸ hc)
    rw [isSolid, isBlank_fold]
    exact hnote d hd
  have hhyphens := suffix_map_fold_iff (u := "--".toList) (s := t.names) (by decide) (by decide)
  rw [namesLine_eq, RunsOver, ← t.hyphens_suffix_iff, ← hhyphens]
  exact mentions_over_names_iff (by decide) (by decide +kernel) (by decide) (by decide) (by decide)
    t.isSolid_names hstop

end AnnouncedTable

namespace Announcement

variable (k : Announcement)

/-- What follows the line that names the model and the view. -/
def behindNames : List Char :=
  '\n' :: unlines (k.between ++ k.table.placeLine k.built k.ending :: k.behind)

def behindPlace : List Char := k.ending ++ if k.behind = [] then [] else '\n' :: unlines k.behind

theorem text_eq_names :
    k.text = k.front.flatMap (· ++ ['\n']) ++ (k.table.namesLine k.note ++ k.behindNames) := by
  rw [text, unlines_append_cons, unlines_cons, if_neg (by simp), behindNames]

theorem text_eq_place : k.text = (k.front ++ k.table.namesLine k.note :: k.between).flatMap (· ++ ['\n']) ++
    ("-- finished ".toList ++ (k.table.view ++ (" => ".toList ++
      (k.table.mark ++ k.table.path k.built ++ k.table.mark ++ k.behindPlace)))) := by
  have hlines : k.front ++ k.table.namesLine k.note :: (k.between ++ k.table.placeLine k.built k.ending ::
      k.behind) = (k.front ++ k.table.namesLine k.note :: k.between) ++
        k.table.placeLine k.built k.ending :: k.behind := by
    rw [List.append_assoc, List.cons_append]
  rw [text, hlines, unlines_append_cons, unlines_cons, behindPlace]
  unfold AnnouncedTable.placeLine
  simp only [List.append_assoc]

theorem stops_view : Stops isSolid (k.note ++ k.behindNames) :=
  k.note_apart.append (stops_cons (by decide) _)

theorem stops_place : Stops isSolid k.behindPlace := by
  refine k.ending_apart.append ?_
  split
  · exact stops_nil
  · exact stops_cons (by decide) _

theorem modelAndView?_text : modelAndView? k.text = some (k.table.model, k.table.view) := by
  have hline : k.table.namesLine k.note ++ k.behindNames = "-- Building persistent derived table ".toList ++
      (k.table.model ++ ("::".toList ++ (k.table.view ++ (k.note ++ k.behindNames)))) := by
    unfold AnnouncedTable.namesLine
    simp only [List.append_assoc]
  rw [text_eq_names, hline]
  exact modelAndView?_lines k.building_once k.table.model_word k.table.view_word k.stops_view

/-- No line in front of the finish line mentions one. -/
theorem finished_once_front (h : ¬ k.table.RunsOver k.note) :
    ∀ l ∈ k.front ++ k.table.namesLine k.note :: k.between, mentions "-- finished ".toList l = false := by
  have hnote := k.finished_once k.note (by simp)
  have hnames : mentions "-- finished ".toList (k.table.namesLine k.note) = false := by
    rw [Bool.eq_false_iff, Ne, k.table.mentions_namesLine_iff k.note_apart, hnote]
    exact not_or.mpr ⟨Bool.false_ne_true, h⟩
  intro l hl
  rcases List.mem_append.mp hl with hl | hl
  · exact k.finished_once l (List.mem_append_left _ hl)
  · rcases List.mem_cons.mp hl with rfl | hl
    · exact hnames
    · exact k.finished_once l (List.mem_append_right _ (List.mem_cons_of_mem _ hl))

theorem builtReference?_text (h : ¬ k.table.RunsOver k.note) :
    builtReference? k.text = some (k.table.mark, k.table.path k.built) :=
  k.text_eq_place ▸ builtReference?_lines (k.finished_once_front h) k.table.view_word k.table.mark_mem
    ⟨by simp [AnnouncedTable.path], k.table.inBareReference_path k.built⟩ k.stops_place

end Announcement

/-- **Announcements.** All that a block announces of its table is read from it, whatever else is in it, as
long as the view and what follows it do not read together as the start of a finish line. -/
theorem ofBlock_announcement (k : Announcement) (h : ¬ k.table.RunsOver k.note) :
    DerivedTable.ofBlock k.text = k.table.derived := by
  have hname :=
    find?_ephemeral k.built k.table.separator_mem k.table.key_name k.table.suffix_name
  rw [DerivedTable.ofBlock_eq k.modelAndView?_text (k.builtReference?_text h)
    (k.table.splitReference_path k.built) k.table.schema_part.1 hname]
  rfl

/-- A table whose view ends like the start of a comment. -/
def hyphenTable : AnnouncedTable where
  model := "m;".toList
  view := "::v--".toList
  schema := "s=>".toList
  project := "p-1".toList
  separator := '$'
  key := "9k".toList
  suffix := "_lr_ab".toList
  mark := ['\x60']

/-- Its block, between lines that look like those of a block. -/
def hyphenBlock : Announcement where
  table := hyphenTable
  built := .c
  front := ["-- finishes".toList, "-- Building persistent".toList]
  note := " finishedx => s.LR$ZK1".toList
  between := ["-- Building persistent derived table a::b".toList]
  ending := " -- finished c => s.LC$ZK2".toList
  behind := ["-- finished d => s.LC$ZK3".toList]

theorem ofBlock_announcement_hyphens : ¬ hyphenTable.RunsOver hyphenBlock.note ∧
    DerivedTable.ofBlock hyphenBlock.text = hyphenTable.derived :=
  have h : ¬ hyphenTable.RunsOver hyphenBlock.note := by decide +kernel
  ⟨h, ofBlock_announcement hyphenBlock h⟩

/-- The same view in front of a note that is no finish line of its own. -/
def runningOver : Announcement where
  table := hyphenTable
  built := .r
  note := " finished a => s.LR$ZK1".toList
  between := []
  ending_apart := stops_nil

/-- So a note can be read together with the view in front of it. -/
theorem ofBlock_runsOver : ¬ ∀ k : Announcement, DerivedTable.ofBlock k.text = k.table.derived := by
  intro h
  have hread := congrArg DerivedTable.registrationKey (h runningOver)
  revert hread
  decide +kernel

end QueryBlend
