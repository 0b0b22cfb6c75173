import QueryBlend.Proofs.Text.Blanks
import QueryBlend.Proofs.Text.Occurrences
/-!
# Every place of a pattern

A place of a text is where a front of it ends and the rest begins. This module says at which places
`Pattern.find?` and `Pattern.spans` have looked, and what they have found there.

* **The first place.** In front of what is found the pattern can be read nowhere (`readAt_of_find?`), and
  something is found wherever there is a place (`exists_find?_le`).
* **Bars.** A form *bars* a pattern that can be read nowhere in what the form takes. Blanks, numbers and
  words do so by their characters: a pattern that is looked for at the starts of words, and begins with two
  letters that no word begins with, can be read in none of them (`bars_word`, `bars_of_takes`). Where the
  first word is the pattern's own, only the inside of the form is barred (`BarsInside`).
* **All places.** A pattern whose form bars the pattern inside does not overlap itself, so its spans miss
  no place (`mem_spans_iff`).
-/
namespace QueryBlend.Text

/-! ## Letters -/

theorem isAsciiLetter_of_fold {c : Char} (h : isAsciiLetter (fold c) = true) :
    c = '\u017f' ∨ c = '\u212a' ∨ (isAsciiLetter c = true ∧ c.toNat < 128) := by
  by_cases hs : c = '\u017f'
  · exact .inl hs
  by_cases hk : c = '\u212a'
  · exact .inr (.inl hk)
  have hf : fold c = lowerAscii c := by simp [fold, hs, hk]
  have hletter : isAsciiLetter c = true := by
    rw [hf, lowerAscii] at h
    split at h
    · rename_i hcapital
      simp [isAsciiLetter, hcapital.1, hcapital.2]
    · exact h
  refine .inr (.inr ⟨hletter, ?_⟩)
  simp only [isAsciiLetter, Bool.or_eq_true, Bool.and_eq_true, decide_eq_true_eq] at hletter
  have hz : 'z'.toNat = 122 ∧ 'Z'.toNat = 90 := by decide
  rcases hletter with ⟨-, hle⟩ | ⟨-, hle⟩
  · have : c.toNat ≤ 'z'.toNat := hle
    omega
  · have : c.toNat ≤ 'Z'.toNat := hle
    omega

/-- What counts as a letter of ASCII is a character of words. -/
theorem isWord_of_fold {c : Char} (h : isAsciiLetter (fold c) = true) : isWord c = true := by
  rcases isAsciiLetter_of_fold h with rfl | rfl | ⟨hletter, hlt⟩
  · decide +kernel
  · decide +kernel
  · rw [isWord_ascii c hlt, isAsciiAlphanumeric, hletter]
    rfl

theorem not_letter_of_isBlank {c : Char} (h : isBlank c = true) : isAsciiLetter (fold c) = false := by
  simpa using of_isBlank (p := fun c => !isAsciiLetter (fold c)) (by decide +kernel) h

theorem not_isBlank_of_letter {c : Char} (h : isAsciiLetter (fold c) = true) : isBlank c = false := by
  rw [← Bool.not_eq_true]
  intro hblank
  rw [not_letter_of_isBlank hblank] at h
  cases h

theorem not_letter_of_isDecimal {c : Char} (h : isDecimal c = true) : isAsciiLetter (fold c) = false := by
  rw [← Bool.not_eq_true]
  intro hf
  rcases isAsciiLetter_of_fold hf with rfl | rfl | ⟨hletter, hlt⟩
  · exact absurd h (by decide +kernel)
  · exact absurd h (by decide +kernel)
  · rw [isDecimal_ascii c hlt] at h
    simp only [isAsciiDigit, isAsciiLetter, Bool.or_eq_true, Bool.and_eq_true, decide_eq_true_eq]
      at h hletter
    have hpoints : '9'.toNat = 57 ∧ 'A'.toNat = 65 ∧ 'a'.toNat = 97 := by decide
    have h9 : c.toNat ≤ '9'.toNat := h.2
    rcases hletter with ⟨hle, -⟩ | ⟨hle, -⟩
    · have : 'a'.toNat ≤ c.toNat := hle
      omega
    · have : 'A'.toNat ≤ c.toNat := hle
      omega

/-! ## The first place -/

namespace Pattern

variable {p : Pattern} {prev : Option Char} {s : List Char}

/-- What is found is at the first place of all where the pattern can be read. -/
theorem readAt_of_findFrom {f : Found} (h : p.findFrom prev s = some f) :
    p.readAt (f.before.getLast?.or prev) f.here = some f.after ∧
      ∀ a b, f.before = a ++ b → b ≠ [] → p.readAt (a.getLast?.or prev) (b ++ f.here) = none := by
  induction s generalizing prev f with
  | nil => cases h
  | cons c cs ih =>
    rw [findFrom] at h
    split at h
    · rename_i after hafter
      cases h
      exact ⟨hafter, fun a b hab hb => absurd (List.append_eq_nil_iff.mp hab.symm).2 hb⟩
    · rename_i hnone
      obtain ⟨g, hg, rfl⟩ := Option.map_eq_some_iff.mp h
      obtain ⟨hr, hfirst⟩ := ih hg
      refine ⟨by rwa [getLast?_cons_or], fun a b hab hb => ?_⟩
      cases a with
      | nil =>
        obtain rfl : c :: g.before = b := hab
        rw [List.cons_append, ← (p.findFrom_eq_some hg).1]
        exact hnone
      | cons d a =>
        obtain ⟨rfl, hbefore⟩ := List.cons.inj hab
        rw [getLast?_cons_or]
        exact hfirst a b hbefore hb

theorem readAt_of_find? {f : Found} (h : p.find? s = some f) :
    p.readAt f.before.getLast? f.here = some f.after ∧
      ∀ a b, f.before = a ++ b → b ≠ [] → p.readAt a.getLast? (b ++ f.here) = none := by
  simpa only [Option.or_none] using readAt_of_findFrom h

/-- Where the pattern can be read it is found, there or in front of it. -/
theorem exists_find?_le {a b r : List Char} (hb : b ≠ []) (hr : p.readAt a.getLast? b = some r) :
    ∃ f, p.find? (a ++ b) = some f ∧ f.before <+: a := by
  have hfrom : ∀ prev, p.readAt (a.getLast?.or prev) b = some r →
      ∃ f, p.findFrom prev (a ++ b) = some f ∧ f.before <+: a := by
    clear hr
    induction a with
    | nil =>
      intro prev hr
      cases b with
      | nil => exact absurd rfl hb
      | cons c cs =>
        refine ⟨⟨[], c :: cs, r⟩, ?_, List.nil_prefix⟩
        rw [List.nil_append, findFrom, show p.readAt prev (c :: cs) = some r from hr]
    | cons c cs ih =>
      intro prev hr
      rw [List.cons_append, findFrom]
      cases hc : p.readAt prev (c :: (cs ++ b)) with
      | some after => exact ⟨_, rfl, List.nil_prefix⟩
      | none =>
        rw [getLast?_cons_or] at hr
        obtain ⟨f, hf, hbefore⟩ := ih (some c) hr
        exact ⟨_, congrArg (Option.map _) hf, List.cons_prefix_cons.mpr ⟨rfl, hbefore⟩⟩
  exact hfrom none (by rwa [Option.or_none])

theorem occursIn_iff : p.occursIn s = true ↔
    ∃ a b r, s = a ++ b ∧ b ≠ [] ∧ p.readAt a.getLast? b = some r := by
  constructor
  · intro h
    obtain ⟨f, hf⟩ := Option.isSome_iff_exists.mp h
    obtain ⟨hs, hne, -⟩ := p.find?_eq_some hf
    exact ⟨f.before, f.here, f.after, hs, hne, (readAt_of_find? hf).1⟩
  · rintro ⟨a, b, r, rfl, hb, hr⟩
    obtain ⟨f, hf, -⟩ := exists_find?_le hb hr
    rw [occursIn, hf, Option.isSome_some]

end Pattern

/-! ## Bars -/

namespace Form

/-- Behind the front of what the form takes the pattern can be read nowhere in it. -/
structure BarsInside (f : Form) (q : Pattern) : Prop where
  cuts : Cuts f
  inside : ∀ a b r, f (a ++ b) = some r → a ≠ [] → r.length < b.length → q.readAt a.getLast? b = none

/-- The pattern can be read nowhere in what the form takes. -/
structure Bars (f : Form) (q : Pattern) : Prop extends BarsInside f q where
  front : ∀ s r, f s = some r → r.length < s.length → q.form s = none

variable {f g : Form} {q : Pattern} {p : Char → Bool}

theorem Takes.cuts (h : Takes f p) : Cuts f := by
  intro s r hr
  obtain ⟨w, rfl, -⟩ := h s r hr
  exact List.suffix_append w r

/-- What a form takes, cut where some of it is still to come. -/
theorem Takes.exists_inside (h : Takes f p) {a b r : List Char} (hr : f (a ++ b) = some r)
    (hl : r.length < b.length) :
    ∃ c u, b = c :: (u ++ r) ∧ p c = true ∧ a.all p = true := by
  obtain ⟨w, hw, hall⟩ := h _ _ hr
  obtain ⟨u, rfl, hb⟩ | ⟨u, -, rfl, -⟩ := append_eq_append_cases hw
  · rw [List.all_append, Bool.and_eq_true] at hall
    cases u with
    | nil =>
      rw [hb, List.nil_append] at hl
      omega
    | cons c u =>
      rw [List.all_cons, Bool.and_eq_true] at hall
      exact ⟨c, u, hb, hall.2.1, hall.1⟩
  · rw [List.length_append] at hl
    omega

theorem bars_of_takes (h : Takes f p) (hp : ∀ c s, p c = true → q.form (c :: s) = none) : Bars f q where
  cuts := h.cuts
  inside a b r hr _ hl := by
    obtain ⟨c, u, rfl, hc, -⟩ := h.exists_inside hr hl
    exact Pattern.readAt_eq_none (by simp [hp c _ hc]) _
  front s r hr hl := by
    obtain ⟨c, u, rfl, hc, -⟩ := h.exists_inside (a := []) hr hl
    exact hp c _ hc

/-- Nothing that is looked for at the starts of words can be read inside of one. -/
theorem barsInside_of_isWord (hq : q.atWordStart = true) (h : Takes f isWord) : BarsInside f q where
  cuts := h.cuts
  inside a b r hr ha hl := by
    obtain ⟨-, -, -, -, hall⟩ := h.exists_inside hr hl
    obtain ⟨init, c, rfl⟩ := (List.eq_nil_or_concat a).resolve_left ha
    have hc : isWord c = true := List.all_eq_true.mp hall c (by simp)
    simp [Pattern.readAt, hq, hc]

/-- Bars put one behind the other: the second form has to bar its front, too. -/
theorem BarsInside.seq (hf : BarsInside f q) (hg : Bars g q) : BarsInside (f >=> g) q where
  cuts := hf.cuts.seq hg.cuts
  inside a b r hr ha hl := by
    obtain ⟨t, ht, htr⟩ := seq_eq_some_iff.mp hr
    by_cases hlt : t.length < b.length
    · exact hf.inside a b t ht ha hlt
    · obtain ⟨u, v, rfl, rfl⟩ := exists_of_suffix_of_length_le (hf.cuts _ _ ht) (Nat.le_of_not_lt hlt)
      by_cases hv : v = []
      · subst hv
        exact Pattern.readAt_eq_none (by simp [hg.front b r htr hl]) _
      · rw [List.getLast?_append_of_ne_nil _ hv]
        exact hg.inside v b r htr hv hl

theorem Bars.seq (hf : Bars f q) (hg : Bars g q) : Bars (f >=> g) q where
  toBarsInside := hf.toBarsInside.seq hg
  front s r hr hl := by
    obtain ⟨t, ht, htr⟩ := seq_eq_some_iff.mp hr
    by_cases hlt : t.length < s.length
    · exact hf.front s t ht hlt
    · obtain rfl : t = s := (hf.cuts s t ht).eq_of_length_le (Nat.le_of_not_lt hlt)
      exact hg.front t r htr hl

theorem BarsInside.either (hf : BarsInside f q) (hg : BarsInside g q) : BarsInside (either f g) q where
  cuts := hf.cuts.either hg.cuts
  inside a b r hr := by
    rcases Option.or_eq_some_iff.mp hr with hr | ⟨-, hr⟩
    · exact hf.inside a b r hr
    · exact hg.inside a b r hr

theorem Bars.either (hf : Bars f q) (hg : Bars g q) : Bars (either f g) q where
  toBarsInside := hf.toBarsInside.either hg.toBarsInside
  front s r hr := by
    rcases Option.or_eq_some_iff.mp hr with hr | ⟨-, hr⟩
    · exact hf.front s r hr
    · exact hg.front s r hr

theorem Bars.maybe (hf : Bars f q) : Bars (maybe f) q where
  cuts := hf.cuts.maybe
  inside a b r hr ha hl := by
    rcases Option.or_eq_some_iff.mp hr with hr | ⟨-, hr⟩
    · exact hf.inside a b r hr ha hl
    · rw [← Option.some.inj hr, List.length_append] at hl
      omega
  front s r hr hl := by
    rcases Option.or_eq_some_iff.mp hr with hr | ⟨-, hr⟩
    · exact hf.front s r hr hl
    · rw [← Option.some.inj hr] at hl
      omega

end Form

/-! ## Patterns that begin with two letters -/

/-- The pattern is looked for at the starts of words, and begins with one of these pairs of letters. -/
structure Pattern.BeginsIn (q : Pattern) (starts : List (Char × Char)) : Prop where
  atWordStart : q.atWordStart = true
  letters : ∀ xy ∈ starts, isAsciiLetter xy.1 = true
  begins : ∀ s r, q.form s = some r → ∃ c d cs, s = c :: d :: cs ∧ (fold c, fold d) ∈ starts

/-- Where one pattern can be read no other can that begins with other letters. -/
theorem Pattern.BeginsIn.form_eq_none {p q : Pattern} {starts starts' : List (Char × Char)}
    (hp : p.BeginsIn starts) (hq : q.BeginsIn starts') (hdisjoint : ∀ xy ∈ starts, xy ∉ starts')
    {s r : List Char} (hr : p.form s = some r) : q.form s = none := by
  refine Option.eq_none_iff_forall_ne_some.mpr fun r' hr' => ?_
  obtain ⟨c, d, cs, rfl, hmem⟩ := hp.begins _ _ hr
  obtain ⟨c', d', cs', hs, hmem'⟩ := hq.begins _ _ hr'
  obtain ⟨rfl, htail⟩ := List.cons.inj hs
  obtain ⟨rfl, -⟩ := List.cons.inj htail
  exact hdisjoint _ hmem hmem'

/-- Whether a word, its letters folded, begins with none of the pairs of letters, whatever follows it. -/
def beginsElse (starts : List (Char × Char)) : (w : List Char) → Bool
  | [] => true
  | [x] => starts.all (·.1 != x)
  | x :: y :: _ => !starts.contains (x, y)

namespace Form

variable {q : Pattern} {f : Form} {starts : List (Char × Char)} {w : String}

/-- Without letters there is no word to begin with. -/
theorem bars_of_no_letter (hq : q.BeginsIn starts) (h : Takes f fun c => !isAsciiLetter (fold c)) :
    Bars f q := by
  refine bars_of_takes h fun c s hc => Option.eq_none_iff_forall_ne_some.mpr fun r hr => ?_
  obtain ⟨d, e, cs, hs, hmem⟩ := hq.begins _ _ hr
  obtain ⟨rfl, -⟩ := List.cons.inj hs
  simp [hq.letters _ hmem] at hc

theorem bars_blanks (hq : q.BeginsIn starts) : Bars blanks q :=
  bars_of_no_letter hq <| takes_many1 fun c hc => by simp [not_letter_of_isBlank hc]

theorem bars_number (hq : q.BeginsIn starts) : Bars number q :=
  bars_of_no_letter hq <| takes_many1 fun c hc => by simp [not_letter_of_isDecimal hc]

theorem bars_gap (hq : q.BeginsIn starts) : Bars gap q :=
  bars_of_no_letter hq <| takes_many fun c hc => by simp [not_letter_of_isBlank hc]

theorem bars_wordEnd (hq : q.BeginsIn starts) : Bars wordEnd q := bars_of_no_letter hq takes_wordEnd

theorem bars_textEnd (hq : q.BeginsIn starts) : Bars textEnd q :=
  bars_of_no_letter hq takes_textEnd

theorem takes_isWord (hw : (w.toList.map fold).all isAsciiLetter = true) : Takes (word w) isWord :=
  takes_spelled fun _ hc => isWord_of_fold (List.all_eq_true.mp hw _ hc)

theorem barsInside_word (hq : q.BeginsIn starts) (hw : (w.toList.map fold).all isAsciiLetter = true) :
    BarsInside (word w) q := barsInside_of_isWord hq.atWordStart (takes_isWord hw)

theorem bars_word (hq : q.BeginsIn starts) (hw : (w.toList.map fold).all isAsciiLetter = true)
    (hb : beginsElse starts (w.toList.map fold) = true) : Bars (word w) q where
  toBarsInside := barsInside_word hq hw
  front s r hr hl := by
    refine Option.eq_none_iff_forall_ne_some.mpr fun r' hr' => ?_
    obtain ⟨c, d, cs, rfl, hmem⟩ := hq.begins _ _ hr'
    obtain ⟨v, hv, hfold⟩ := spelled_eq_some_iff.mp hr
    rw [← hfold] at hb
    cases v with
    | nil =>
      rw [hv, List.nil_append] at hl
      exact Nat.lt_irrefl _ hl
    | cons x v =>
      obtain ⟨rfl, htail⟩ := List.cons.inj hv
      cases v with
      | nil =>
        simp only [List.map_cons, List.map_nil, beginsElse, List.all_eq_true, bne_iff_ne] at hb
        exact hb _ hmem rfl
      | cons y v =>
        obtain ⟨rfl, -⟩ := List.cons.inj htail
        simp [beginsElse, hmem] at hb

end Form

/-! ## All places -/

namespace Pattern
open Form

variable {p : Pattern} {prev : Option Char} {s : List Char}

/-- A pattern that is barred in what it takes has an occurrence wherever it can be read. -/
theorem mem_spansFrom (hp : BarsInside p.form p) {before here after : List Char} (hne : here ≠ [])
    (hr : p.readAt (before.getLast?.or prev) here = some after) {skip : Nat}
    (hs : skip ≤ before.length) (k : Nat) :
    (k + before.length, k + before.length + (here.length - after.length)) ∈
      p.spansFrom skip prev k (before ++ here) := by
  induction before generalizing prev skip k with
  | nil =>
    obtain rfl : skip = 0 := by simpa using hs
    cases here with
    | nil => exact absurd rfl hne
    | cons c cs =>
      have hr : p.readAt prev (c :: cs) = some after := hr
      rw [List.nil_append, spansFrom, hr]
      exact List.mem_cons_self
  | cons c cs ih =>
    have hk : k + (c :: cs).length = k + 1 + cs.length := by
      rw [List.length_cons]
      omega
    have hrest := hr
    rw [getLast?_cons_or] at hrest
    rw [hk]
    cases skip with
    | succ skip => exact ih hrest (Nat.le_of_succ_le_succ hs) (k + 1)
    | zero =>
      rw [List.cons_append, spansFrom]
      split
      · rename_i behind hbehind
        -- the occurrence that starts here ends in front of the place
        have hle : here.length ≤ behind.length := by
          refine Nat.le_of_not_lt fun hlt => ?_
          have hnone := hp.inside (c :: cs) here behind (form_of_readAt hbehind) (List.cons_ne_nil _ _) hlt
          have hlast : (c :: cs).getLast?.or prev = (c :: cs).getLast? := by simp [List.getLast?_cons]
          rw [hlast, hnone] at hr
          cases hr
        refine List.mem_cons_of_mem _ (ih hrest ?_ (k + 1))
        rw [List.length_append]
        omega
      · exact ih hrest (Nat.zero_le _) (k + 1)

theorem mem_spans_iff (hp : BarsInside p.form p) {i j : Nat} : (i, j) ∈ p.spans s ↔
    ∃ before here after, s = before ++ here ∧ here ≠ [] ∧ i = before.length ∧
      p.readAt before.getLast? here = some after ∧ j = i + (here.length - after.length) := by
  constructor
  · intro h
    simpa only [Option.or_none, Nat.zero_add] using readAt_of_mem_spansFrom h
  · rintro ⟨before, here, after, rfl, hne, rfl, hr, rfl⟩
    have hfrom : p.readAt (before.getLast?.or none) here = some after := by rwa [Option.or_none]
    have hmem := mem_spansFrom hp hne hfrom (Nat.zero_le _) 0
    rwa [Nat.zero_add] at hmem

/-- Occurrences come from left to right. -/
theorem spansFrom_sorted (p : Pattern) (skip : Nat) (prev : Option Char) (k : Nat) (s : List Char) :
    (p.spansFrom skip prev k s).Pairwise fun x y => x.1 < y.1 := by
  induction s generalizing skip prev k with
  | nil => cases skip <;> exact List.Pairwise.nil
  | cons c cs ih =>
    cases skip with
    | succ skip => exact ih skip (some c) (k + 1)
    | zero =>
      rw [spansFrom]
      split
      · refine List.pairwise_cons.mpr ⟨fun x hx => ?_, ih _ (some c) (k + 1)⟩
        obtain ⟨before, -, -, -, -, hi, -⟩ := readAt_of_mem_spansFrom (i := x.1) (j := x.2) hx
        simp only
        omega
      · exact ih 0 (some c) (k + 1)

end Pattern
end QueryBlend.Text
