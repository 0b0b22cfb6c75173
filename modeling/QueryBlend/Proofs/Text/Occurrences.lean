import QueryBlend.Proofs.ListFacts
import QueryBlend.Proofs.Text.Forms
/-!
# Where patterns occur

`Pattern.find?` answers the first place and `Pattern.spans` all of them. What they answer for a text that
is put together depends on forms that are read across the seams. This module says when a seam is safe.

* **What a form takes.** `Form.Takes f p`: all characters that `f` takes are of the class `p`. It goes
  over the ways in which forms are put together (`Takes.seq`, `Takes.either`, `Takes.maybe`).
* **The first place.** `find?_of_first`: a pattern is found where it can be read, when its form can be
  read nowhere in front of that place.
* **All places.** `readAt_of_mem_spansFrom`: where an occurrence starts the pattern can be read, and the
  occurrence is what it takes there.
* **The last place.** A pattern that *starts once* with a letter takes that letter first and never again,
  so no occurrence reaches over the start of another one (`spansFrom_append_of_startsOnce`). An occurrence
  behind which there is none is the last, whatever is in front of it (`spans_concat`).
-/
namespace QueryBlend.Text

/-! ## What a form takes -/

namespace Form

theorem spelled_eq_some_iff {w s r : List Char} :
    spelled w s = some r ↔ ∃ v, s = v ++ r ∧ v.map fold = w.map fold := by
  induction w generalizing s with
  | nil => simp [spelled, eq_comm]
  | cons a as ih =>
    cases s with
    | nil => simp [spelled]
    | cons c cs =>
      rw [spelled]
      constructor
      · intro h
        split at h
        · rename_i he
          obtain ⟨v, hv, hf⟩ := ih.mp h
          exact ⟨c :: v, by rw [hv, List.cons_append], by rw [List.map_cons, List.map_cons, he, hf]⟩
        · cases h
      · rintro ⟨v, hv, hf⟩
        cases v with
        | nil => cases hf
        | cons d ds =>
          simp only [List.cons_append, List.cons.injEq, List.map_cons] at hv hf
          obtain ⟨rfl, hv⟩ := hv
          rw [if_pos hf.1.symm]
          exact ih.mpr ⟨ds, hv, hf.2⟩

theorem head_of_spelled {a : Char} {w s r : List Char} (h : spelled (a :: w) s = some r) :
    ∃ c cs, s = c :: cs ∧ fold c = fold a ∧ spelled w cs = some r := by
  cases s with
  | nil => cases h
  | cons c cs =>
    rw [spelled] at h
    split at h
    · rename_i he
      exact ⟨c, cs, rfl, he.symm, h⟩
    · cases h

/-- A word does not reach over a line feed. -/
theorem spelled_cut_feed {w s t r : List Char} (hw : '\n' ∉ w.map fold)
    (h : spelled w (s ++ '\n' :: t) = some r) : ∃ r', spelled w s = some r' := by
  obtain ⟨v, hv, hf⟩ := spelled_eq_some_iff.mp h
  have hfeed : v.all (· != '\n') = true := by
    rw [List.all_eq_true]
    intro c hc
    rw [bne_iff_ne]
    rintro rfl
    have hmem : fold '\n' ∈ w.map fold := hf ▸ List.mem_map_of_mem hc
    exact hw hmem
  have hstop : Stops (· != '\n') ('\n' :: t) := stops_cons (by decide) t
  obtain ⟨r', hr'⟩ := prefix_run hfeed hstop ⟨r, hv.symm⟩
  exact ⟨r', spelled_eq_some_iff.mpr ⟨v, hr'.symm, hf⟩⟩

theorem seq_eq_some_iff {f g : Form} {s r : List Char} :
    (f >=> g) s = some r ↔ ∃ t, f s = some t ∧ g t = some r := Option.bind_eq_some_iff

/-- All that the form takes is of the class. -/
def Takes (f : Form) (p : Char → Bool) : Prop :=
  ∀ s r, f s = some r → ∃ w, s = w ++ r ∧ w.all p = true

variable {f g : Form} {p q : Char → Bool}

theorem takes_spelled {w : List Char} (h : ∀ c, fold c ∈ w.map fold → p c = true) :
    Takes (spelled w) p := by
  intro s r hr
  obtain ⟨v, rfl, hv⟩ := spelled_eq_some_iff.mp hr
  refine ⟨v, rfl, List.all_eq_true.mpr fun c hc => h c ?_⟩
  rw [← hv]
  exact List.mem_map_of_mem hc

theorem takes_literal {w : String} (h : w.toList.all p = true) : Takes (literal w) p := by
  intro s r hr
  exact ⟨w.toList, (behind?_eq_some_iff _ _ _).mp hr, h⟩

theorem takes_many (h : ∀ c, q c = true → p c = true) : Takes (many q) p := by
  intro s r hr
  cases hr
  refine ⟨s.takeWhile q, List.takeWhile_append_dropWhile.symm, List.all_eq_true.mpr fun c hc => h c ?_⟩
  exact List.all_eq_true.mp List.all_takeWhile c hc

theorem takes_many1 (h : ∀ c, q c = true → p c = true) : Takes (many1 q) p := by
  intro s r hr
  cases s with
  | nil => cases hr
  | cons c cs =>
    rw [many1] at hr
    split at hr
    · rename_i hc
      obtain ⟨w, rfl, hw⟩ := takes_many h cs r hr
      exact ⟨c :: w, rfl, by rw [List.all_cons, h c hc, hw]; rfl⟩
    · cases hr

theorem takes_wordEnd : Takes wordEnd p := by
  intro s r hr
  rw [wordEnd] at hr
  split at hr
  · cases hr
  · cases hr
    exact ⟨[], rfl, rfl⟩

theorem takes_textEnd : Takes textEnd p := by
  intro s r hr
  rw [textEnd] at hr
  split at hr
  · cases hr
    exact ⟨[], rfl, rfl⟩
  · cases hr

theorem Takes.seq (hf : Takes f p) (hg : Takes g p) : Takes (f >=> g) p := by
  intro s r hr
  obtain ⟨t, ht, htr⟩ := seq_eq_some_iff.mp hr
  obtain ⟨v, rfl, hv⟩ := hf s t ht
  obtain ⟨w, rfl, hw⟩ := hg t r htr
  exact ⟨v ++ w, by simp, by simp [hv, hw]⟩

theorem Takes.either (hf : Takes f p) (hg : Takes g p) : Takes (Form.either f g) p := by
  intro s r hr
  rcases Option.or_eq_some_iff.mp hr with hr | ⟨-, hr⟩
  · exact hf s r hr
  · exact hg s r hr

theorem Takes.maybe (hf : Takes f p) : Takes (Form.maybe f) p := by
  intro s r hr
  rcases Option.or_eq_some_iff.mp hr with hr | ⟨-, hr⟩
  · exact hf s r hr
  · cases hr
    exact ⟨[], rfl, rfl⟩

end Form

namespace Pattern
open Form

/-! ## The first place -/

variable {p : Pattern} {prev : Option Char} {s t : List Char}

/-- Only whether a word is under way counts of what stands in front of a text. -/
theorem findFrom_congr {prev' : Option Char} (h : prev.any isWord = prev'.any isWord) (s : List Char) :
    p.findFrom prev s = p.findFrom prev' s := by
  cases s with
  | nil => rfl
  | cons c cs => simp only [findFrom, readAt, h]

theorem readAt_eq_none (h : ∀ r, p.form s ≠ some r) (prev : Option Char) : p.readAt prev s = none := by
  simp [readAt, Option.eq_none_iff_forall_ne_some.mpr h]

theorem form_of_readAt {r : List Char} (h : p.readAt prev s = some r) : p.form s = some r := by
  rw [readAt] at h
  split at h
  · cases h
  · exact h

/-- Where one pattern is tried, every other is that may be tried at the same places. -/
theorem readAt_of_place {q : Pattern} (hpq : p.atWordStart = q.atWordStart) {r r' : List Char}
    (h : p.readAt prev s = some r) (hf : q.form t = some r') : q.readAt prev t = some r' := by
  rw [readAt] at h
  split at h
  · cases h
  · rename_i hplace
    rw [readAt, ← hpq, if_neg hplace, hf]

/-- Where a pattern can be read behind a text it can be read behind an end of it, too. -/
theorem readAt_of_append {u r : List Char} (h : p.readAt (s ++ t).getLast? u = some r) :
    p.readAt t.getLast? u = some r := by
  by_cases ht : t = []
  · subst ht
    rw [readAt, if_neg (by simp), form_of_readAt h]
  · rwa [List.getLast?_append_of_ne_nil _ ht] at h

/-- Where one text may be tried, every text may. -/
theorem readAt_of_form {r r' : List Char} (h : p.readAt prev s = some r) (hf : p.form t = some r') :
    p.readAt prev t = some r' := readAt_of_place rfl h hf

theorem findFrom_eq_none (h : ∀ x r, x <:+ s → x ≠ [] → p.form x ≠ some r) (prev : Option Char) :
    p.findFrom prev s = none := by
  induction s generalizing prev with
  | nil => rfl
  | cons c cs ih =>
    have hc := readAt_eq_none (h (c :: cs) · (List.suffix_refl _) (List.cons_ne_nil c cs)) prev
    have hcs := ih (fun x r hx => h x r (hx.trans (List.suffix_cons c cs))) (some c)
    rw [findFrom, hc, hcs, Option.map_none]

theorem occursIn_eq_false (h : ∀ x r, x <:+ s → x ≠ [] → p.form x ≠ some r) :
    p.occursIn s = false := by
  rw [occursIn, find?, findFrom_eq_none h, Option.isSome_none]

theorem find?_eq_none_of_occursIn (h : p.occursIn s = false) : p.find? s = none := by
  simpa [occursIn] using h

/-- A pattern that may be tried anywhere and does not occur can be read nowhere. -/
theorem form_ne_some_of_occursIn (hp : p.atWordStart = false) (h : p.occursIn s = false)
    (x r : List Char) (hx : x <:+ s) (hne : x ≠ []) : p.form x ≠ some r := by
  have hfind : p.findFrom none s = none := find?_eq_none_of_occursIn h
  clear h
  generalize (none : Option Char) = prev at hfind
  induction s generalizing prev with
  | nil => exact absurd (List.suffix_nil.mp hx) hne
  | cons c cs ih =>
    rw [findFrom] at hfind
    cases hr : p.readAt prev (c :: cs) with
    | some after => rw [hr] at hfind; cases hfind
    | none =>
      rw [hr, Option.map_eq_none_iff] at hfind
      rcases List.suffix_cons_iff.mp hx with rfl | hx
      · have hform : p.form (c :: cs) = none := by simpa [readAt, hp] using hr
        simp [hform]
      · exact ih hx _ hfind

theorem occursIn_eq_false_of_suffix (hp : p.atWordStart = false) (h : p.occursIn s = false)
    (ht : t <:+ s) : p.occursIn t = false :=
  occursIn_eq_false fun x r hx => form_ne_some_of_occursIn hp h x r (hx.trans ht)

/-- A pattern is found where it can be read, when it can be read nowhere in front of that place. -/
theorem find?_of_first {here after : List Char} (hne : here ≠ [])
    (h : ∀ x r, x <:+ s → x ≠ [] → p.form (x ++ here) ≠ some r)
    (hr : p.readAt s.getLast? here = some after) :
    p.find? (s ++ here) = some ⟨s, here, after⟩ := by
  have hfrom : ∀ prev, p.readAt (s.getLast?.or prev) here = some after →
      p.findFrom prev (s ++ here) = some ⟨s, here, after⟩ := by
    clear hr
    induction s with
    | nil =>
      intro prev hr
      cases here with
      | nil => exact absurd rfl hne
      | cons c cs => rw [List.nil_append, findFrom, show p.readAt prev (c :: cs) = _ from hr]
    | cons c cs ih =>
      intro prev hr
      have hc := readAt_eq_none (h (c :: cs) · (List.suffix_refl _) (List.cons_ne_nil c cs)) prev
      have hcs := ih (fun x r hx => h x r (hx.trans (List.suffix_cons c cs))) (some c)
        (by simpa [List.getLast?_cons] using hr)
      rw [List.cons_append] at hc ⊢
      rw [findFrom, hc, hcs, Option.map_some]
  exact hfrom none (by simpa using hr)

/-! ## All places -/

/-- One character more in front of what has been passed. -/
theorem getLast?_cons_or (c : Char) (cs : List Char) (prev : Option Char) :
    (c :: cs).getLast?.or prev = cs.getLast?.or (some c) := by
  simp [List.getLast?_cons]

/-- Where an occurrence starts the pattern can be read, and the occurrence is what it takes there. -/
theorem readAt_of_mem_spansFrom {skip k i j : Nat} (h : (i, j) ∈ p.spansFrom skip prev k s) :
    ∃ before here after, s = before ++ here ∧ here ≠ [] ∧ i = k + before.length ∧
      p.readAt (before.getLast?.or prev) here = some after ∧ j = i + (here.length - after.length) := by
  induction s generalizing skip prev k with
  | nil => cases skip <;> simp [spansFrom] at h
  | cons c cs ih =>
    have hcs {skip : Nat} (h : (i, j) ∈ p.spansFrom skip (some c) (k + 1) cs) :
        ∃ before here after, c :: cs = before ++ here ∧ here ≠ [] ∧ i = k + before.length ∧
          p.readAt (before.getLast?.or prev) here = some after ∧
            j = i + (here.length - after.length) := by
      obtain ⟨before, here, after, rfl, hne, hi, hr, hj⟩ := ih h
      refine ⟨c :: before, here, after, rfl, hne, ?_, ?_, hj⟩
      · rw [hi, List.length_cons]
        omega
      · rwa [getLast?_cons_or]
    cases skip with
    | succ skip => exact hcs h
    | zero =>
      rw [spansFrom] at h
      split at h
      · rename_i after hafter
        rcases List.mem_cons.mp h with h | h
        · obtain ⟨rfl, rfl⟩ := Prod.mk.inj h
          exact ⟨[], c :: cs, after, rfl, List.cons_ne_nil _ _, rfl, hafter, rfl⟩
        · exact hcs h
      · exact hcs h

theorem form_of_mem_spans {i j : Nat} (h : (i, j) ∈ p.spans s) : ∃ r, p.form (s.drop i) = some r := by
  obtain ⟨before, here, after, rfl, -, hi, hr, -⟩ := readAt_of_mem_spansFrom h
  rw [Nat.zero_add] at hi
  refine ⟨after, ?_⟩
  rw [hi, List.drop_left]
  exact form_of_readAt hr

/-! ## The last place -/

/-- The letter `a` in either case stands at the front of all that the pattern takes, and only there. -/
def StartsOnce (p : Pattern) (a : Char) : Prop :=
  ∀ s r, p.form s = some r → ∃ c w, s = c :: (w ++ r) ∧ fold c = a ∧ w.all (fold · != a) = true

theorem startsOnce_word {w : String} {a : Char} {as : List Char} {g : Form} {atWordStart : Bool}
    (hw : w.toList = a :: as) (has : as.all (fold · != fold a) = true)
    (hg : Takes g (fold · != fold a)) : StartsOnce ⟨word w >=> g, atWordStart⟩ (fold a) := by
  intro s r hr
  obtain ⟨t, ht, htr⟩ := seq_eq_some_iff.mp hr
  rw [word, hw] at ht
  obtain ⟨c, cs, rfl, hc, hrest⟩ := head_of_spelled ht
  have hletters : Takes (spelled as) (fold · != fold a) := takes_spelled fun d hd => by
    obtain ⟨e, he, hde⟩ := List.mem_map.mp hd
    rw [← hde]
    exact List.all_eq_true.mp has e he
  obtain ⟨w, rfl, hall⟩ := hletters.seq hg cs r (seq_eq_some_iff.mpr ⟨t, hrest, htr⟩)
  exact ⟨c, w, rfl, hc, hall⟩

/-- Behind the characters that still belong to an occurrence the search goes on. -/
theorem spansFrom_skip (p : Pattern) (prev : Option Char) (i : Nat) (s t : List Char) :
    p.spansFrom s.length prev i (s ++ t) =
      p.spansFrom 0 (s.getLast?.or prev) (i + s.length) t := by
  induction s generalizing prev i with
  | nil => rfl
  | cons c cs ih =>
    rw [List.cons_append, List.length_cons, spansFrom, ih, List.getLast?_cons]
    have hi : i + 1 + cs.length = i + (cs.length + 1) := by omega
    simp [hi]

theorem spansFrom_eq_nil (h : p.findFrom prev s = none) (i : Nat) : p.spansFrom 0 prev i s = [] := by
  induction s generalizing prev i with
  | nil => rfl
  | cons c cs ih =>
    rw [findFrom] at h
    cases hr : p.readAt prev (c :: cs) with
    | some after => rw [hr] at h; cases h
    | none =>
      rw [hr, Option.map_eq_none_iff] at h
      rw [spansFrom, hr]
      exact ih h (i + 1)

/-- What is found is an occurrence. -/
theorem spansFrom_ne_nil {f : Found} (h : p.findFrom prev s = some f) (i : Nat) :
    p.spansFrom 0 prev i s ≠ [] := by
  induction s generalizing prev f i with
  | nil => cases h
  | cons c cs ih =>
    rw [findFrom] at h
    rw [spansFrom]
    cases hr : p.readAt prev (c :: cs) with
    | some after => exact List.cons_ne_nil _ _
    | none =>
      rw [hr] at h
      obtain ⟨g, hg, -⟩ := Option.map_eq_some_iff.mp h
      exact ih hg (i + 1)

/-- No occurrence in front of the letter that the pattern starts with reaches over it, so that the search
comes to it with nothing to skip. -/
theorem spansFrom_append_of_startsOnce {a : Char} (hp : p.StartsOnce a)
    (ht : ∃ c cs, t = c :: cs ∧ fold c = a) {skip : Nat} (hs : skip ≤ s.length) (prev : Option Char)
    (i : Nat) : ∃ spans, p.spansFrom skip prev i (s ++ t) =
      spans ++ p.spansFrom 0 (s.getLast?.or prev) (i + s.length) t := by
  have hstop : Stops (fold · != a) t := by
    obtain ⟨c, cs, rfl, hc⟩ := ht
    exact stops_cons (by simp [hc]) cs
  induction s generalizing skip prev i with
  | nil =>
    have : skip = 0 := by simpa using hs
    exact ⟨[], by simp [this]⟩
  | cons c cs ih =>
    have hi : i + (c :: cs).length = i + 1 + cs.length := by simp; omega
    rw [hi, getLast?_cons_or]
    cases skip with
    | succ k => exact ih (by simpa using hs) (some c) (i + 1)
    | zero =>
      cases hr : p.readAt prev (c :: (cs ++ t)) with
      | none =>
        rw [List.cons_append, spansFrom, hr]
        exact ih (Nat.zero_le _) (some c) (i + 1)
      | some after =>
        obtain ⟨d, w, hw, -, hall⟩ := hp _ _ (form_of_readAt hr)
        have hcs : cs ++ t = w ++ after := (List.cons.inj hw).2
        have hwcs : w <+: cs := prefix_run hall hstop ⟨after, hcs.symm⟩
        have hn : (cs ++ t).length + 1 - after.length - 1 ≤ cs.length := by
          have := hwcs.length_le
          rw [hcs, List.length_append]
          omega
        obtain ⟨spans, hspans⟩ := ih hn (some c) (i + 1)
        refine ⟨(i, i + ((cs ++ t).length + 1 - after.length)) :: spans, ?_⟩
        rw [List.cons_append, spansFrom, hr]
        simp only [hspans, List.cons_append]

/-- An occurrence behind which there is none is the last one, whatever is in front of it. -/
theorem spans_concat {a : Char} (hp : p.StartsOnce a) {here : List Char} (hne : here ≠ [])
    (hr : p.readAt s.getLast? (here ++ t) = some t) (ht : p.findFrom here.getLast? t = none) :
    ∃ spans, p.spans (s ++ (here ++ t)) = spans ++ [(s.length, s.length + here.length)] := by
  obtain ⟨c, w, hw, hc, -⟩ := hp _ _ (form_of_readAt hr)
  obtain ⟨spans, hspans⟩ :=
    spansFrom_append_of_startsOnce hp ⟨c, w ++ t, hw, hc⟩ (Nat.zero_le s.length) none 0
  refine ⟨spans, ?_⟩
  rw [Pattern.spans, hspans, Option.or_none, Nat.zero_add]
  cases here with
  | nil => exact absurd rfl hne
  | cons d ds =>
    have hn : (ds ++ t).length + 1 - t.length = ds.length + 1 := by simp; omega
    have hrest := spansFrom_skip p (some d) (s.length + 1) ds t
    have hlast : ds.getLast?.or (some d) = (d :: ds).getLast? := by simp [List.getLast?_cons]
    rw [hlast, spansFrom_eq_nil ht] at hrest
    rw [List.cons_append, spansFrom, show p.readAt s.getLast? (d :: (ds ++ t)) = some t from hr]
    simp only [hn, Nat.add_sub_cancel, hrest, List.length_cons]

end Pattern
end QueryBlend.Text
