import QueryBlend.Proofs.DerivedTable.Redirection
import QueryBlend.Proofs.ListFacts
import QueryBlend.Proofs.Text.Occurrences
import Mathlib.Data.List.Basic
/-!
# The reference as a block writes it

A finish line may name its table with small letters and with more around the ephemeral name than belongs to it:
the name is looked for anywhere in the last part of the reference, and letters in either case are read. The
references that are redirected are put together anew from what has been read. They start with capitals and end
with the name, so the reference in the block need not be one of them.

* `written?_eq`: what is written is the path that is read, between its marks.
* `splitReference_eq`: the path is nothing but its parts with dots in between.
* `mem_references_iff`: it is one of the references exactly if it is *spelled out*.
* `redirect_written`: then it becomes the name of the stable view, unless that name has a reference in it that is
  found again.

A reference in small letters stays as it is (`redirect_written_small`).
-/
namespace QueryBlend.DerivedTable
open Text

/-- The reference in the finish line of a block, with its marks. -/
def written? (block : List Char) : Option (List Char) := do
  let f ← finishedLine.find? block
  let named ← finishedForm f.here
  return named.take (named.length - f.after.length)

/-- The parts are those that every ephemeral name has. -/
structure Ephemeral.IsProper (e : Ephemeral) : Prop where
  separator_mem : e.separator = '_' ∨ e.separator = '$'
  key_name : e.key.length = 2 ∧ e.key.all isKeyChar = true
  suffix_name : e.suffix ≠ [] ∧ e.suffix.all isSuffixChar = true

/-- There is no project without a name in the path, and its last part is an ephemeral name in capitals. -/
def IsSpelledOut (path : List Char) : Prop :=
  path.head? ≠ some '.' ∧
    ∃ e : Ephemeral, e.IsProper ∧ ∃ variant ∈ ["LR", "LC"], '.' :: e.name variant <:+ path

/-- What a table tells when its reference has been read off a path. -/
structure ReadFrom (t : DerivedTable) (path table : List Char) (e : Ephemeral) : Prop where
  parts : splitReference path = (t.project, t.schema, table)
  schema_ne_nil : t.schema ≠ []
  name_found : Ephemeral.find? table = some e
  nameR_eq : t.nameR = e.name "LR"
  nameC_eq : t.nameC = e.name "LC"

variable {block path table : List Char} {t : DerivedTable} {e : Ephemeral} {variant : String}

/-! ## The line -/

/-- Between marks, what is read goes up to the second one. -/
theorem readReference_quoted {q : Char} (hq : q = '\x60' ∨ q = '\x22') {s after : List Char}
    (h : quotedReference q s = some after) :
    ∃ text, readReference s = ([q], text) ∧ s = [q] ++ text ++ [q] ++ after := by
  have hliteral {s r : List Char} (h : Form.literal q.toString s = some r) : s = q :: r := by
    rcases hq with rfl | rfl <;> exact (behind?_eq_some_iff _ s r).mp h
  obtain ⟨cs, hopen, h⟩ := Form.seq_eq_some_iff.mp h
  obtain ⟨r, htext, hclose⟩ := Form.seq_eq_some_iff.mp h
  refine ⟨cs.takeWhile (inReference q), ?_, ?_⟩
  · rw [hliteral hopen, readReference, if_pos hq]
  · have hcs := Form.takeWhile_append_of_many1 htext
    rw [hliteral hclose] at hcs
    rw [hliteral hopen, List.append_assoc, List.append_assoc, List.singleton_append,
      List.singleton_append, hcs]

/-- A reference without marks starts with a character that is none. -/
theorem readReference_bare {s after : List Char} (h : Form.many1 inBareReference s = some after) :
    ∃ text, readReference s = ([], text) ∧ s = text ++ after := by
  refine ⟨s.takeWhile inBareReference, ?_, (Form.takeWhile_append_of_many1 h).symm⟩
  cases s with
  | nil => rfl
  | cons c cs =>
    have hc : inBareReference c = true := by
      rw [Form.many1] at h
      split at h
      · assumption
      · cases h
    simp only [inBareReference, Bool.and_eq_true, bne_iff_ne] at hc
    rw [readReference, if_neg (not_or.mpr hc.1)]

/-- A reference that can be read is the path between its marks. -/
theorem readReference_eq {named after : List Char} (h : reference named = some after) :
    ∃ mark path, readReference named = (mark, path) ∧ named = mark ++ path ++ mark ++ after := by
  rcases Option.or_eq_some_iff.mp h with h | ⟨-, h⟩
  · obtain ⟨text, hread, he⟩ := readReference_quoted (.inl rfl) h
    exact ⟨_, text, hread, he⟩
  rcases Option.or_eq_some_iff.mp h with h | ⟨-, h⟩
  · obtain ⟨text, hread, he⟩ := readReference_quoted (.inr rfl) h
    exact ⟨_, text, hread, he⟩
  · obtain ⟨text, hread, he⟩ := readReference_bare h
    exact ⟨[], text, hread, by rwa [List.nil_append, List.append_nil]⟩

/-- What is written is the path that is read, between its marks. -/
theorem written?_eq {mark : List Char} (h : builtReference? block = some (mark, path)) :
    written? block = some (mark ++ path ++ mark) := by
  obtain ⟨f, hf, h⟩ := Option.bind_eq_some_iff.mp h
  obtain ⟨named, hnamed, h⟩ := Option.bind_eq_some_iff.mp h
  have hread : readReference named = (mark, path) := Option.some.inj h
  obtain ⟨t, ht, href⟩ := Form.seq_eq_some_iff.mp (finishedLine.find?_eq_some hf).2.2
  obtain rfl : named = t := Option.some.inj (hnamed.symm.trans ht)
  obtain ⟨mark', path', hread', he⟩ := readReference_eq href
  obtain ⟨rfl, rfl⟩ : mark = mark' ∧ path = path' := Prod.mk.inj (hread.symm.trans hread')
  have hlen : named.length - f.after.length = (mark ++ path ++ mark).length := by
    rw [he, List.length_append, Nat.add_sub_cancel]
  unfold written?
  simp only [hf, hnamed, Option.bind_eq_bind, Option.bind_some]
  rw [hlen, he, List.take_left]
  rfl

/-! ## The path -/

/-- The path is nothing but its parts with dots in between. -/
theorem splitReference_eq {project schema : List Char}
    (h : splitReference path = (project, schema, table)) (hne : schema ≠ []) :
    ('.' ∉ project ∧ '.' ∉ schema ∧ '.' ∉ table) ∧
      (path = project ++ '.' :: (schema ++ '.' :: table) ∨
        project = [] ∧ path = schema ++ '.' :: table) := by
  have hjoin : ['.'].intercalate (path.splitOn '.') = path := List.intercalate_splitOn '.'
  have hdot : ∀ part ∈ path.splitOn '.', '.' ∉ part := fun part hpart hdot =>
    (mem_of_mem_splitOn hpart hdot).1 rfl
  unfold splitReference at h
  split at h
  · next hs =>
    cases h
    rw [hs] at hjoin hdot
    refine ⟨⟨hdot _ (by simp), hdot _ (by simp), hdot _ (by simp)⟩, .inl ?_⟩
    simp [← hjoin, List.intercalate_cons_cons]
  · next hs =>
    cases h
    rw [hs] at hjoin hdot
    refine ⟨⟨List.not_mem_nil, hdot _ (by simp), hdot _ (by simp)⟩, .inr ⟨rfl, ?_⟩⟩
    simp [← hjoin, List.intercalate_cons_cons]
  · cases h
    exact absurd rfl hne

/-- The last part of a text is what is behind its last dot. -/
theorem dot_suffix_iff {name front : List Char} (hname : '.' ∉ name) (htable : '.' ∉ table) :
    '.' :: name <:+ front ++ '.' :: table ↔ table = name := by
  refine ⟨fun h => ?_, fun h => h ▸ List.suffix_append _ _⟩
  have htail : '.' :: table <:+ front ++ '.' :: table := List.suffix_append _ _
  rcases List.suffix_or_suffix_of_suffix h htail with h | h
  · rcases List.suffix_cons_iff.mp h with h | h
    · exact (List.cons.inj h).2.symm
    · exact absurd (h.subset List.mem_cons_self) htable
  · rcases List.suffix_cons_iff.mp h with h | h
    · exact (List.cons.inj h).2
    · exact absurd (h.subset List.mem_cons_self) hname

/-! ## The name -/

/-- Only proper names are read. -/
theorem isProper_of_read? {s : List Char} (h : Ephemeral.read? s = some e) : e.IsProper := by
  have htake {rest : List Char} (h : rest.head?.any isSuffixChar = true) :
      rest.takeWhile isSuffixChar ≠ [] := by
    cases rest with
    | nil => cases h
    | cons c cs =>
      have hc : isSuffixChar c = true := h
      rw [List.takeWhile_cons_of_pos hc]
      exact List.cons_ne_nil _ _
  unfold Ephemeral.read? at h
  split at h
  · split at h
    · next hs =>
      cases h
      obtain ⟨-, -, hsep, ha, hb, hsuffix⟩ := hs
      exact ⟨hsep, ⟨rfl, by simp [ha, hb]⟩, htake hsuffix, List.all_takeWhile⟩
    · cases h
  · cases h

theorem isProper_of_find? {s : List Char} (h : Ephemeral.find? s = some e) : e.IsProper := by
  induction s with
  | nil => cases h
  | cons c s ih =>
    rcases Option.or_eq_some_iff.mp h with h | ⟨-, h⟩
    · exact isProper_of_read? h
    · exact ih h

theorem Ephemeral.IsProper.dot_notMem (h : e.IsProper) (hv : variant ∈ ["LR", "LC"]) :
    '.' ∉ e.name variant := by
  have hletters : '.' ∉ variant.toList := by
    revert variant
    decide
  have hsep : '.' ≠ e.separator := by
    rcases h.separator_mem with h | h <;> rw [h] <;> decide
  have hkey := not_mem_of_all h.key_name.2 (c := '.') (by decide)
  have hsuffix := not_mem_of_all h.suffix_name.2 (c := '.') (by decide)
  simp [Ephemeral.name, hletters, hsep, hkey, hsuffix]

/-- A name in capitals is read as what it is. -/
theorem Ephemeral.IsProper.find?_name (h : e.IsProper) (hv : variant ∈ ["LR", "LC"]) :
    Ephemeral.find? (e.name variant) = some e := by
  simp only [List.mem_cons, List.not_mem_nil, or_false] at hv
  rcases hv with rfl | rfl <;>
    exact DerivedTable.find?_name (by decide) (by decide) h.separator_mem h.key_name h.suffix_name

/-! ## The references -/

namespace ReadFrom

variable (h : t.ReadFrom path table e)

include h

theorem isProper : e.IsProper := isProper_of_find? h.name_found

theorem references_eq : t.references = ["LR", "LC"].map fun variant => t.referenceTo (e.name variant) := by
  have hnames : t.names = ["LR", "LC"].map e.name := by
    unfold names
    rw [h.nameR_eq, h.nameC_eq]
    rfl
  rw [references, hnames, List.map_map]
  rfl

/-- The path between the marks is a reference exactly if its last part is the name and no project without a name
is in front. -/
theorem referenceTo_eq_iff (name : List Char) : t.quoteMark ++ path ++ t.quoteMark = t.referenceTo name ↔
    path.head? ≠ some '.' ∧ table = name := by
  obtain ⟨⟨hproject, hschema, -⟩, hpath⟩ := splitReference_eq h.parts h.schema_ne_nil
  have hhead {s r : List Char} (hs : '.' ∉ s) (hne : s ≠ []) : (s ++ r).head? ≠ some '.' := by
    cases s with
    | nil => exact absurd rfl hne
    | cons c s => exact fun hc => hs (by simp_all)
  have hcancel (r : List Char) :
      t.quoteMark ++ path ++ t.quoteMark = t.quoteMark ++ r ++ t.quoteMark ↔ path = r := by
    rw [List.append_left_inj, List.append_right_inj]
  have hreference : t.referenceTo name = t.quoteMark ++
      ((if t.project.isEmpty then [] else t.project ++ ['.']) ++ (t.schema ++ '.' :: name)) ++
        t.quoteMark := by
    unfold referenceTo
    simp only [List.append_assoc, List.cons_append]
  rw [hreference, hcancel]
  by_cases hp : t.project = []
  · rw [hp] at hpath ⊢
    rw [List.isEmpty_nil, if_pos rfl, List.nil_append]
    rcases hpath with rfl | ⟨-, rfl⟩
    · refine iff_of_false (fun he => ?_) (fun hno => hno.1 rfl)
      exact hhead hschema h.schema_ne_nil (congrArg List.head? he).symm
    · rw [List.append_right_inj, List.cons_inj_right]
      exact (and_iff_right (hhead hschema h.schema_ne_nil)).symm
  · rw [List.isEmpty_eq_false_iff.mpr hp, if_neg Bool.false_ne_true]
    obtain rfl := hpath.resolve_right fun hno => hp hno.1
    rw [List.append_assoc, List.singleton_append, List.append_right_inj, List.cons_inj_right,
      List.append_right_inj, List.cons_inj_right]
    exact (and_iff_right (hhead hproject hp)).symm

/-- What is written is one of the references exactly if it is spelled out. -/
theorem mem_references_iff :
    t.quoteMark ++ path ++ t.quoteMark ∈ t.references ↔ IsSpelledOut path := by
  obtain ⟨⟨-, -, htable⟩, hpath⟩ := splitReference_eq h.parts h.schema_ne_nil
  obtain ⟨front, rfl⟩ : ∃ front, path = front ++ '.' :: table := by
    rcases hpath with rfl | ⟨-, rfl⟩
    · exact ⟨t.project ++ '.' :: t.schema, by rw [List.append_assoc, List.cons_append]⟩
    · exact ⟨t.schema, rfl⟩
  have hlast {e' : Ephemeral} {variant : String} (he : e'.IsProper) (hv : variant ∈ ["LR", "LC"]) :
      '.' :: e'.name variant <:+ front ++ '.' :: table ↔ table = e'.name variant :=
    dot_suffix_iff (he.dot_notMem hv) htable
  rw [h.references_eq]
  simp only [List.mem_map, eq_comm (b := t.quoteMark ++ _ ++ _), h.referenceTo_eq_iff, IsSpelledOut]
  constructor
  · rintro ⟨variant, hv, hhead, he⟩
    exact ⟨hhead, e, h.isProper, variant, hv, (hlast h.isProper hv).mpr he⟩
  · rintro ⟨hhead, e', he', variant, hv, hsuffix⟩
    have htable' := (hlast he' hv).mp hsuffix
    -- the name in the last part is the one that has been found in it
    have hfound := he'.find?_name hv
    rw [← htable', h.name_found] at hfound
    obtain rfl := Option.some.inj hfound
    exact ⟨variant, hv, hhead, htable'⟩

/-- A reference becomes the name of the stable view, unless it is the first one that is looked for and the second
one is a part of that name. -/
theorem redirect_eq_stableName_iff {ref : List Char} (hmem : ref ∈ t.references) :
    redirect ref [t] = t.stableName ↔ ¬ (ref = t.referenceTo t.nameR ∧
      t.referenceTo t.nameC <:+: t.stableName ∧ t.referenceTo t.nameC ≠ t.stableName) := by
  have hrefs : t.references = [t.referenceTo t.nameR, t.referenceTo t.nameC] := by
    rw [h.references_eq, h.nameR_eq, h.nameC_eq]
    rfl
  have hlength : (t.referenceTo t.nameR).length = (t.referenceTo t.nameC).length := by
    rw [h.nameR_eq, h.nameC_eq]
    simp [referenceTo, Ephemeral.name]
  have hneR : t.referenceTo t.nameR ≠ [] :=
    reference_ne_nil (hrefs ▸ List.mem_cons_self)
  have hneC : t.referenceTo t.nameC ≠ [] :=
    reference_ne_nil (hrefs ▸ List.mem_cons_of_mem _ List.mem_cons_self)
  have hredirect : redirect ref [t] = replaceAll (t.referenceTo t.nameC) t.stableName
      (replaceAll (t.referenceTo t.nameR) t.stableName ref) := by
    show redirectOne ref t = _
    rw [redirectOne_eq, hrefs]
    rfl
  rw [hredirect]
  by_cases hR : ref = t.referenceTo t.nameR
  · rw [hR, replaceAll_self hneR, replaceAll_eq_self_iff hneC]
    simp
  · obtain rfl : ref = t.referenceTo t.nameC := by simpa [hrefs, hR] using hmem
    have habsent : ¬ t.referenceTo t.nameR <:+: t.referenceTo t.nameC := fun hin =>
      hR (hin.eq_of_length hlength).symm
    rw [replaceAll_of_absent habsent, replaceAll_self hneC]
    exact iff_of_true rfl fun hno => hR hno.1

end ReadFrom

/-- A block with ephemeral names has a path that they are read from. -/
theorem exists_readFrom (h : (ofBlock block).names ≠ []) : ∃ path table e,
    builtReference? block = some ((ofBlock block).quoteMark, path) ∧
      (ofBlock block).ReadFrom path table e := by
  cases hbuilt : builtReference? block with
  | none =>
    have hnone : (ofBlock block).names = [] := by simp [names, ofBlock, hbuilt, splitReference]
    exact absurd hnone h
  | some built =>
    obtain ⟨mark, path⟩ := built
    rcases hparts : splitReference path with ⟨project, schema, table⟩
    have hschema : schema.isEmpty = false := by
      rw [Bool.eq_false_iff]
      intro hempty
      have hnone : (ofBlock block).names = [] := by simp [names, ofBlock, hbuilt, hparts, hempty]
      exact h hnone
    cases hname : Ephemeral.find? table with
    | none =>
      have hnone : (ofBlock block).names = [] := by simp [names, ofBlock, hbuilt, hparts, hname]
      exact absurd hnone h
    | some e =>
      have hmark : (ofBlock block).quoteMark = mark := by simp only [ofBlock, hbuilt, Option.getD_some]
      refine ⟨path, table, e, by rw [hmark], ?_⟩
      constructor <;> simp_all [ofBlock]

/-- **The reference of a block.** What a block with ephemeral names has written for its table is the path between
its marks. It is one of the references that are redirected exactly if it is spelled out, and then it becomes the name
of the stable view, unless it is the first of the two and the second one is found in that name. -/
theorem redirect_written (h : (ofBlock block).names ≠ []) : ∃ path ref,
    ref = (ofBlock block).quoteMark ++ path ++ (ofBlock block).quoteMark ∧ written? block = some ref ∧
    (ref ∈ (ofBlock block).references ↔ IsSpelledOut path) ∧
    (ref ∈ (ofBlock block).references →
      (redirect ref [ofBlock block] = (ofBlock block).stableName ↔
        ¬ (ref = (ofBlock block).referenceTo (ofBlock block).nameR ∧
          (ofBlock block).referenceTo (ofBlock block).nameC <:+: (ofBlock block).stableName ∧
          (ofBlock block).referenceTo (ofBlock block).nameC ≠ (ofBlock block).stableName))) := by
  obtain ⟨path, table, e, hbuilt, hread⟩ := exists_readFrom h
  exact ⟨path, _, rfl, written?_eq hbuilt, hread.mem_references_iff, hread.redirect_eq_stableName_iff⟩

/-- A block that names its table by `ref`. -/
def blockOf (ref : List Char) : List Char :=
  "-- Building persistent derived table m::v in dev\n-- finished v => ".toList ++ ref

/-- A reference with a project between marks, in capitals. -/
def capitals : List Char := "\x60p-1.s.LR$ZK1_v\x60".toList

theorem redirect_written_capitals : (ofBlock (blockOf capitals)).names ≠ [] ∧
    written? (blockOf capitals) = some capitals ∧
      redirect capitals [ofBlock (blockOf capitals)] = "s.ZK_m_v".toList := by
  have hnames : (ofBlock (blockOf capitals)).names ≠ [] := by decide +kernel
  obtain ⟨path, ref, -, hwritten, -, hredirect⟩ := redirect_written hnames
  have hread : written? (blockOf capitals) = some capitals := by decide +kernel
  obtain rfl : capitals = ref := Option.some.inj (hread.symm.trans hwritten)
  have hstable : (ofBlock (blockOf capitals)).stableName = "s.ZK_m_v".toList := by decide +kernel
  refine ⟨hnames, hread, hstable ▸ (hredirect ?_).mpr ?_⟩
  · decide +kernel
  · decide +kernel

/-- The same table without a project and without marks, in small letters. -/
def small : List Char := "s.lr$zk1_v".toList

/-- It has ephemeral names, but what the block has written is not found. -/
theorem redirect_written_small : ¬ ∀ block ref, (ofBlock block).names ≠ [] → written? block = some ref →
    redirect ref [ofBlock block] = (ofBlock block).stableName := by
  intro h
  have hsmall := h (blockOf small) small (by decide +kernel) (by decide +kernel)
  revert hsmall
  decide +kernel

end QueryBlend.DerivedTable
