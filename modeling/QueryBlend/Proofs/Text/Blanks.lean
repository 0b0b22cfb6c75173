import QueryBlend.Text.Basic
import QueryBlend.Text.Classes
/-!
# Blanks

What trims do to texts that are put together, and what holds of blanks as a class.

* `dropEnd_append_of_all`, `dropEnd_of_getLast?`: a cut at the end takes a whole part of its class, and
  nothing where the last character is not of the class (`exists_dropEnd_append`: nor anything in front).
  So the last character that it leaves is not of the class (`of_getLast?_dropEnd`).
* `of_isBlank`: a fact about all blanks is checked on their code points.
-/
namespace QueryBlend.Text

variable {p : Char → Bool} {s t : List Char}

theorem dropEnd_of_getLast? {c : Char} (h : s.getLast? = some c) (hc : p c = false) : dropEnd p s = s := by
  induction s with
  | nil => cases h
  | cons d ds ih =>
    by_cases hds : ds = []
    · subst hds
      obtain rfl : d = c := by simpa using h
      simp [dropEnd, hc]
    · have hlast : ds.getLast? = some c := by rwa [List.getLast?_cons_of_ne_nil hds] at h
      rw [dropEnd, ih hlast]
      split
      · exact absurd rfl hds
      · rfl

theorem of_getLast?_dropEnd {c : Char} (h : (dropEnd p s).getLast? = some c) : p c = false := by
  induction s with
  | nil => cases h
  | cons d ds ih =>
    rw [dropEnd] at h
    split at h
    · split at h
      · cases h
      · next hd =>
        obtain rfl : d = c := by simpa using h
        exact Bool.eq_false_iff.mpr hd
    · next hds =>
      rw [List.getLast?_cons_of_ne_nil hds] at h
      exact ih h

theorem dropEnd_append_of_all (ht : t.all p = true) : dropEnd p (s ++ t) = dropEnd p s := by
  induction s with
  | nil => exact (dropEnd_eq_nil_iff p t).mpr ht
  | cons c cs ih => simp only [List.cons_append, dropEnd, ih]

theorem trimStart_append_of_not_blank (h : isAllBlank s = false) (t : List Char) :
    trimStart (s ++ t) = trimStart s ++ t := by
  induction s with
  | nil => cases h
  | cons c cs ih =>
    by_cases hc : isBlank c = true
    · have hcs : isAllBlank cs = false := by simpa [isAllBlank, hc] using h
      simpa [trimStart, List.dropWhile_cons, hc] using ih hcs
    · simp [trimStart, hc]

theorem dropEnd_append_of_not_all (ht : t.all p = false) (s : List Char) :
    dropEnd p (s ++ t) = s ++ dropEnd p t := by
  induction s with
  | nil => rfl
  | cons c cs ih =>
    rw [List.cons_append, dropEnd, ih]
    split
    · rename_i he
      have hnil : dropEnd p t = [] := (List.append_eq_nil_iff.mp he).2
      rw [(dropEnd_eq_nil_iff p t).mp hnil] at ht
      cases ht
    · rfl

/-- A cut at the end does not go beyond a character that is not of the class. -/
theorem exists_dropEnd_append {c : Char} (h : s.getLast? = some c) (hc : p c = false) (t : List Char) :
    ∃ t', dropEnd p (s ++ t) = s ++ t' := by
  cases ht : t.all p with
  | true => exact ⟨[], by rw [dropEnd_append_of_all ht, dropEnd_of_getLast? h hc, List.append_nil]⟩
  | false => exact ⟨dropEnd p t, dropEnd_append_of_not_all ht s⟩

theorem trimStart_append_of_blank (h : isAllBlank s = true) (t : List Char) :
    trimStart (s ++ t) = trimStart t :=
  List.dropWhile_append_of_pos (List.all_eq_true.mp h)

theorem trimStart_of_blank (h : isAllBlank s = true) : trimStart s = [] := by
  rw [← List.append_nil s, trimStart_append_of_blank h]
  rfl

/-- What starts with no blank is not trimmed behind other text. -/
theorem trimStart_append_cons {c : Char} (hc : isBlank c = false) (s t : List Char) :
    trimStart (s ++ c :: t) = trimStart s ++ c :: t := by
  cases h : isAllBlank s with
  | true =>
    rw [trimStart_append_of_blank h, trimStart_of_blank h, trimStart,
      List.dropWhile_cons_of_neg (by rw [hc]; exact Bool.false_ne_true), List.nil_append]
  | false => exact trimStart_append_of_not_blank h _

theorem trim_append_of_blank (ht : isAllBlank t = true) (s : List Char) : trim (s ++ t) = trim s := by
  cases h : isAllBlank s with
  | true => rw [trim, trim, trimStart_append_of_blank h, trimStart_of_blank h, trimStart_of_blank ht]
  | false => rw [trim, trim, trimStart_append_of_not_blank h, trimEnd, dropEnd_append_of_all ht, trimEnd]

/-- The code points of the blanks. -/
def blankPoints : List Nat :=
  [9, 10, 11, 12, 13, 0x20, 0x85, 0xA0, 0x1680, 0x2000, 0x2001, 0x2002, 0x2003, 0x2004, 0x2005, 0x2006,
    0x2007, 0x2008, 0x2009, 0x200A, 0x2028, 0x2029, 0x202F, 0x205F, 0x3000]

theorem mem_blankPoints {c : Char} (h : isBlank c = true) : c.toNat ∈ blankPoints := by
  simp only [isBlank, Bool.or_eq_true, Bool.and_eq_true, decide_eq_true_eq, beq_iff_eq] at h
  simp only [blankPoints, List.mem_cons, List.not_mem_nil, or_false]
  omega

theorem of_isBlank (h : blankPoints.all (fun n => p (Char.ofNat n)) = true) {c : Char}
    (hc : isBlank c = true) : p c = true := by
  have := List.all_eq_true.mp h c.toNat (mem_blankPoints hc)
  rwa [Char.ofNat_toNat] at this

theorem isBlank_of_isDecimal {c : Char} (h : isDecimal c = true) : isBlank c = false := by
  cases hb : isBlank c with
  | false => rfl
  | true =>
    have := of_isBlank (p := (!isDecimal ·)) (by decide +kernel) hb
    simp [h] at this

end QueryBlend.Text
