import QueryBlend.DerivedTable
import QueryBlend.Proofs.Text.Forms
import Mathlib.Data.List.Basic
/-!
# What the lines of a block are read as

`ofBlock` looks for two lines: one names a model and a view, the other a reference to a table. This module
says what is read from such lines for all names and references that the forms let through, whatever lines
are in front of them, as long as those do not mention what the line starts with, and whatever follows them
behind a blank.

* `modelAndView?_lines`, `builtReference?_lines`: names and reference are read as they are written.
* `splitReference_parts`: a reference falls into its parts at its dots.
* `find?_name`: the ephemeral name is read where it starts.
-/
namespace QueryBlend.DerivedTable
open Text

def isModelChar (c : Char) : Bool := c != ':' && isSolid c

variable {ls : List (List Char)} {model view finished mark path rest : List Char}

/-- The model and the view are read from the line that names them. -/
theorem modelAndView?_lines
    (hls : ∀ l ∈ ls, mentions "-- Building persistent derived table ".toList l = false)
    (hmodel : model ≠ [] ∧ model.all isModelChar = true) (hview : view ≠ [] ∧ view.all isSolid = true)
    (hrest : Stops isSolid rest) :
    modelAndView? (ls.flatMap (· ++ ['\n']) ++ ("-- Building persistent derived table ".toList ++
      (model ++ ("::".toList ++ (view ++ rest))))) = some (model, view) := by
  have hcolon (r : List Char) : "::".toList ++ r = ':' :: ':' :: r := rfl
  have hmodel' : model.all (· != ':') = true :=
    List.all_eq_true.mpr fun c hc => (Bool.and_eq_true_iff.mp (List.all_eq_true.mp hmodel.2 c hc)).1
  -- What the form reads, piece by piece.
  let named := model ++ ("::".toList ++ (view ++ rest))
  have hword : buildingForm ("-- Building persistent derived table ".toList ++ named) = some named :=
    Form.word_append _ _
  have hform : buildingLine.form ("-- Building persistent derived table ".toList ++ named) = some rest :=
    Form.seq_eq hword <| Form.seq_eq (Form.many1_append hmodel.1 hmodel.2 (stops_cons (by decide) _)) <|
      Form.seq_eq (Form.literal_append _ _) (Form.many1_append hview.1 hview.2 hrest)
  have hstart : buildingLine.StartsWith "-- Building persistent derived table ".toList :=
    Pattern.startsWith_word (by decide) fun _ _ h => Form.exists_of_seq h
  have hfind := Pattern.find?_behind_lines hstart hls
    (List.append_ne_nil_of_left_ne_nil (by decide) named) hform
  have htake : named.takeWhile (· != ':') = model := takeWhile_stop hmodel' (stops_cons (by decide) _)
  have hdrop : named.dropWhile (· != ':') = "::".toList ++ (view ++ rest) :=
    dropWhile_stop hmodel' (stops_cons (by decide) _)
  unfold modelAndView?
  simp only [named] at hfind hword htake hdrop
  simp only [hfind, Option.bind_eq_bind, Option.bind_some, hword]
  rw [htake, hdrop, hcolon, List.drop_succ_cons, List.drop_succ_cons, List.drop_zero,
    takeWhile_stop hview.2 hrest]
  rfl

/-! ## References -/

/-- What may be the mark around a reference. -/
def IsMark (mark : List Char) : Prop := mark = [] ∨ mark = ['\x60'] ∨ mark = ['\x22']

instance (mark : List Char) : Decidable (IsMark mark) :=
  inferInstanceAs (Decidable (_ ∨ _ ∨ _))

theorem inReference_of_bare {q c : Char} (hq : q = '\x60' ∨ q = '\x22')
    (h : inBareReference c = true) : inReference q c = true := by
  simp only [inBareReference, inReference, Bool.and_eq_true] at h ⊢
  rcases hq with rfl | rfl
  · exact ⟨h.1.1, h.2⟩
  · exact ⟨h.1.2, h.2⟩

theorem stops_mark (q : Char) (s : List Char) : Stops (inReference q) (q :: s) :=
  stops_cons (by simp [inReference]) s

theorem stops_inBareReference {s : List Char} (h : Stops isSolid s) : Stops inBareReference s :=
  fun c hc => by rw [inBareReference, h c hc, Bool.and_false]

/-- A path starts with a character that is no mark. -/
theorem exists_path_cons (hpath : path ≠ [] ∧ path.all inBareReference = true) :
    ∃ c cs, path = c :: cs ∧ c ≠ '\x60' ∧ c ≠ '\x22' := by
  cases path with
  | nil => exact absurd rfl hpath.1
  | cons c cs =>
    have hc := hpath.2
    simp only [List.all_cons, Bool.and_eq_true, inBareReference, bne_iff_ne] at hc
    exact ⟨c, cs, rfl, hc.1.1⟩

/-- The reference is read together with its mark. -/
theorem readReference_marked (hmark : IsMark mark)
    (hpath : path ≠ [] ∧ path.all inBareReference = true) (hrest : Stops isSolid rest) :
    readReference (mark ++ path ++ mark ++ rest) = (mark, path) := by
  have hmarked {q : Char} (hq : q = '\x60' ∨ q = '\x22') :
      readReference ([q] ++ path ++ [q] ++ rest) = ([q], path) := by
    have hall : path.all (inReference q) = true := by
      rw [List.all_eq_true]
      exact fun c hc => inReference_of_bare hq (List.all_eq_true.mp hpath.2 c hc)
    have htake := takeWhile_stop hall (stops_mark q rest)
    simp only [List.cons_append, List.nil_append, List.append_assoc, readReference, if_pos hq, htake]
  rcases hmark with rfl | rfl | rfl
  · obtain ⟨c, cs, rfl, h1, h2⟩ := exists_path_cons hpath
    have htake := takeWhile_stop hpath.2 (stops_inBareReference hrest)
    rw [List.nil_append, List.append_nil, List.cons_append, readReference, if_neg (not_or.mpr ⟨h1, h2⟩)]
    exact congrArg _ htake
  · exact hmarked (.inl rfl)
  · exact hmarked (.inr rfl)

theorem quotedReference_marked {q : Char} (hq : q = '\x60' ∨ q = '\x22')
    (hpath : path ≠ [] ∧ path.all inBareReference = true) (rest : List Char) :
    quotedReference q ([q] ++ path ++ [q] ++ rest) = some rest := by
  have hopen (r : List Char) : Form.literal q.toString (q :: r) = some r := by
    rcases hq with rfl | rfl <;> exact Form.literal_append _ r
  have hall : path.all (inReference q) = true := by
    rw [List.all_eq_true]
    exact fun c hc => inReference_of_bare hq (List.all_eq_true.mp hpath.2 c hc)
  have hs : [q] ++ path ++ [q] ++ rest = q :: (path ++ q :: rest) := by
    simp only [List.cons_append, List.nil_append, List.append_assoc]
  rw [hs]
  exact Form.seq_eq (hopen _) <|
    Form.seq_eq (Form.many1_append hpath.1 hall (stops_mark q rest)) (hopen rest)

/-- A reference can be read as what it is. -/
theorem reference_isSome (hmark : IsMark mark)
    (hpath : path ≠ [] ∧ path.all inBareReference = true) (hrest : Stops isSolid rest) :
    ∃ r, reference (mark ++ path ++ mark ++ rest) = some r := by
  unfold reference Form.either
  rcases hmark with rfl | rfl | rfl
  · obtain ⟨c, cs, rfl, h1, h2⟩ := exists_path_cons hpath
    have hmany := Form.many1_append hpath.1 hpath.2 (stops_inBareReference hrest)
    have hnone {q : Char} (hq : q ≠ c) (hs : q.toString.toList = [q]) (r : List Char) :
        quotedReference q (c :: r) = none := by
      show (Form.literal q.toString _).bind _ = _
      rw [Form.literal, hs, behind?, if_neg hq, Option.bind_none]
    rw [List.nil_append, List.append_nil]
    rw [List.cons_append] at hmany ⊢
    exact ⟨rest, by rw [hnone (Ne.symm h1) rfl, hnone (Ne.symm h2) rfl, hmany]; rfl⟩
  · rw [quotedReference_marked (.inl rfl) hpath]
    exact ⟨rest, rfl⟩
  · rw [quotedReference_marked (.inr rfl) hpath]
    cases hq : quotedReference '\x60' (['\x22'] ++ path ++ ['\x22'] ++ rest) with
    | none => exact ⟨rest, rfl⟩
    | some r => exact ⟨r, rfl⟩

/-- The reference is read from the line that names it. -/
theorem builtReference?_lines (hls : ∀ l ∈ ls, mentions "-- finished ".toList l = false)
    (hfinished : finished ≠ [] ∧ finished.all isSolid = true) (hmark : IsMark mark)
    (hpath : path ≠ [] ∧ path.all inBareReference = true) (hrest : Stops isSolid rest) :
    builtReference? (ls.flatMap (· ++ ['\n']) ++ ("-- finished ".toList ++
      (finished ++ (" => ".toList ++ (mark ++ path ++ mark ++ rest))))) = some (mark, path) := by
  have hstop (r : List Char) : Stops isSolid (" => ".toList ++ r) := stops_cons (by decide) _
  have hform : finishedForm ("-- finished ".toList ++
      (finished ++ (" => ".toList ++ (mark ++ path ++ mark ++ rest)))) =
        some (mark ++ path ++ mark ++ rest) :=
    Form.seq_eq (Form.word_append _ _) <|
      Form.seq_eq (Form.many1_append hfinished.1 hfinished.2 (hstop _)) (Form.literal_append _ _)
  obtain ⟨r, href⟩ := reference_isSome hmark hpath hrest
  have hstart : finishedLine.StartsWith "-- finished ".toList := by
    refine Pattern.startsWith_word (by decide) fun _ _ h => ?_
    obtain ⟨_, h⟩ := Form.exists_of_seq h
    exact Form.exists_of_seq h
  have hfind := Pattern.find?_behind_lines hstart hls
    (List.append_ne_nil_of_left_ne_nil (by decide) _) (Form.seq_eq hform href)
  unfold builtReference?
  simp only [hfind, Option.bind_eq_bind, Option.bind_some, hform]
  rw [readReference_marked hmark hpath hrest]
  rfl

/-- A reference falls into its parts at its dots. -/
theorem splitReference_parts {project schema table : List Char} (hproject : '.' ∉ project)
    (hschema : '.' ∉ schema) (htable : '.' ∉ table) :
    splitReference ((if project.isEmpty then [] else project ++ ['.']) ++ schema ++ '.' :: table) =
      (project, schema, table) := by
  have hsplit : (schema ++ '.' :: table).splitOn '.' = [schema, table] := by
    rw [List.splitOn_append_cons_self_of_not_mem hschema, List.splitOn_eq_singleton htable]
  unfold splitReference
  by_cases hp : project = []
  · simp only [hp, List.isEmpty_nil, if_true, List.nil_append, hsplit]
  · have hne : project.isEmpty = false := List.isEmpty_eq_false_iff.mpr hp
    have hfull : (project ++ ['.'] ++ schema ++ '.' :: table).splitOn '.' =
        [project, schema, table] := by
      rw [List.append_assoc, List.append_assoc, List.singleton_append,
        List.splitOn_append_cons_self_of_not_mem hproject, hsplit]
    simp only [hne, Bool.false_eq_true, if_false, hfull]

/-- A class that holds the dot and the parts of a reference holds the reference. -/
theorem all_parts {p : Char → Bool} {project schema table : List Char} (hdot : p '.' = true)
    (hproject : project.all p = true) (hschema : schema.all p = true) (htable : table.all p = true) :
    ((if project.isEmpty then [] else project ++ ['.']) ++ schema ++ '.' :: table).all p = true := by
  have hfront : (if project.isEmpty then [] else project ++ ['.']).all p = true := by
    split
    · rfl
    · rw [List.all_append, hproject, List.all_cons, hdot]
      rfl
  rw [List.all_append, List.all_append, hfront, hschema, List.all_cons, hdot, htable]
  rfl

/-! ## Ephemeral names -/

/-- The ephemeral name is read where it starts. -/
theorem find?_name {l v sep : Char} {key suffix : List Char} (hl : fold l = 'l')
    (hv : fold v = 'c' ∨ fold v = 'r') (hsep : sep = '_' ∨ sep = '$')
    (hkey : key.length = 2 ∧ key.all isKeyChar = true)
    (hsuffix : suffix ≠ [] ∧ suffix.all isSuffixChar = true) :
    Ephemeral.find? (l :: v :: sep :: (key ++ suffix)) = some ⟨sep, key, suffix⟩ := by
  obtain ⟨a, b, rfl⟩ := List.length_eq_two.mp hkey.1
  simp only [List.all_cons, List.all_nil, Bool.and_true, Bool.and_eq_true] at hkey
  have hhead : suffix.head?.any isSuffixChar = true := by
    cases suffix with
    | nil => exact absurd rfl hsuffix.1
    | cons c cs => exact (Bool.and_eq_true_iff.mp hsuffix.2).1
  have htake : suffix.takeWhile isSuffixChar = suffix := by
    have := takeWhile_stop hsuffix.2 stops_nil
    rwa [List.append_nil] at this
  have hread : Ephemeral.read? (l :: v :: sep :: ([a, b] ++ suffix)) = some ⟨sep, [a, b], suffix⟩ := by
    simp only [List.cons_append, List.nil_append, Ephemeral.read?, htake]
    exact if_pos ⟨hl, hv, hsep, hkey.2.1, hkey.2.2, hhead⟩
  rw [Ephemeral.find?, hread, Option.some_or]

/-! ## Blocks -/

/-- What is read from a block is put together from its two lines. -/
theorem ofBlock_eq {block model view mark path project schema table : List Char} {e : Ephemeral}
    (hnames : modelAndView? block = some (model, view)) (hbuilt : builtReference? block = some (mark, path))
    (hsplit : splitReference path = (project, schema, table)) (hschema : schema ≠ [])
    (hname : Ephemeral.find? table = some e) : ofBlock block =
      { registrationKey := e.key, model, view, schema, nameR := e.name "LR", nameC := e.name "LC"
        stableName := stableNameOf schema e.key model view, project, quoteMark := mark } := by
  have hne : schema.isEmpty = false := List.isEmpty_eq_false_iff.mpr hschema
  unfold ofBlock
  rw [hnames, hbuilt]
  simp only [Option.getD_some, hsplit, hname, hne, Option.map_some, Bool.false_eq_true, if_false]

end QueryBlend.DerivedTable
