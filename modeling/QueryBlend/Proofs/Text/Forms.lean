import QueryBlend.Text.Pattern
/-!
# Reading forms off known texts

What a form does on a text that is put together for it, and where a pattern is found when the lines in
front of it do not even mention the word it starts with.

* `spelled_append`, `literal_append`, `many1_append`: a form reads what it is made for, as long as the
  text behind it *stops* the class of its characters.
* `find?_behind_lines`: a pattern that starts with a word is found behind lines that do not mention it.
-/
namespace QueryBlend.Text

/-- The text does not start with a character of the class. -/
def Stops (p : Char → Bool) (s : List Char) : Prop := ∀ c, s.head? = some c → p c = false

/-- Whether the line has a part that is the word `w`, letters in either case. -/
def mentions (w line : List Char) : Bool := hasPart (w.map fold) (line.map fold)

variable {p : Char → Bool}

theorem stops_nil : Stops p [] := fun _ h => nomatch h

theorem stops_cons {c : Char} (h : p c = false) (s : List Char) : Stops p (c :: s) := by
  intro d hd
  cases hd
  exact h

instance (p : Char → Bool) (s : List Char) : Decidable (Stops p s) :=
  match s with
  | [] => isTrue stops_nil
  | c :: cs =>
    if h : p c = false then isTrue (stops_cons h cs) else isFalse fun hs => h (hs c rfl)

theorem Stops.append {s t : List Char} (hs : Stops p s) (ht : Stops p t) : Stops p (s ++ t) := by
  cases s with
  | nil => exact ht
  | cons c cs => exact stops_cons (hs c rfl) (cs ++ t)

theorem all_imp {q : Char → Bool} {s : List Char} (h : s.all p = true)
    (hpq : ∀ {c}, p c = true → q c = true) : s.all q = true := by
  rw [List.all_eq_true] at h ⊢
  exact fun c hc => hpq (h c hc)

theorem not_mem_of_all {s : List Char} {c : Char} (h : s.all p = true) (hc : p c = false) :
    c ∉ s := fun hm => by
  rw [List.all_eq_true.mp h c hm] at hc
  cases hc

/-- A text of the class at the front of a run and what stops it is at the front of the run. -/
theorem prefix_run {old run tail : List Char} (ho : old.all p = true) (ht : Stops p tail)
    (h : old <+: run ++ tail) : old <+: run := by
  rcases List.prefix_or_prefix_of_prefix h (List.prefix_append run tail) with h' | ⟨x, rfl⟩
  · exact h'
  · rw [List.prefix_append_right_inj] at h
    cases x with
    | nil => simp
    | cons c cs =>
      obtain ⟨r, rfl⟩ := h
      have hc : p c = true := List.all_eq_true.mp ho c (by simp)
      rw [ht c rfl] at hc
      cases hc

theorem takeWhile_stop {s t : List Char} (hs : s.all p = true) (ht : Stops p t) :
    (s ++ t).takeWhile p = s := by
  rw [List.takeWhile_append_of_pos (List.all_eq_true.mp hs)]
  cases t with
  | nil => exact List.append_nil s
  | cons c cs =>
    rw [List.takeWhile_cons_of_neg (by rw [ht c rfl]; exact Bool.false_ne_true), List.append_nil]

theorem dropWhile_stop {s t : List Char} (hs : s.all p = true) (ht : Stops p t) :
    (s ++ t).dropWhile p = t := by
  rw [List.dropWhile_append_of_pos (List.all_eq_true.mp hs)]
  cases t with
  | nil => rfl
  | cons c cs => rw [List.dropWhile_cons_of_neg (by rw [ht c rfl]; exact Bool.false_ne_true)]

namespace Form

theorem spelled_append (w r : List Char) : spelled w (w ++ r) = some r := by
  induction w with
  | nil => rfl
  | cons c cs ih => rw [List.cons_append, spelled, if_pos rfl, ih]

theorem word_append (w : String) (r : List Char) : word w (w.toList ++ r) = some r :=
  spelled_append w.toList r

theorem literal_append (w : String) (r : List Char) : literal w (w.toList ++ r) = some r :=
  (behind?_eq_some_iff _ _ _).mpr rfl

theorem many1_append {s t : List Char} (hne : s ≠ []) (hs : s.all p = true) (ht : Stops p t) :
    many1 p (s ++ t) = some t := by
  cases s with
  | nil => exact absurd rfl hne
  | cons c cs =>
    rw [List.all_cons, Bool.and_eq_true] at hs
    rw [List.cons_append, many1, if_pos hs.1, dropWhile_stop hs.2 ht]

/-- What is read and what is left of it are the text. -/
theorem takeWhile_append_of_many1 {s after : List Char}
    (h : many1 p s = some after) : s.takeWhile p ++ after = s := by
  cases s with
  | nil => cases h
  | cons c cs =>
    rw [many1] at h
    split at h
    · next hc =>
      cases h
      rw [List.takeWhile_cons_of_pos hc, List.cons_append, List.takeWhile_append_dropWhile]
    · cases h

theorem seq_eq {f g : Form} {s t r : List Char} (hf : f s = some t) (hg : g t = some r) :
    (f >=> g) s = some r := by
  show (f s).bind g = some r
  rw [hf, Option.bind_some, hg]

theorem exists_of_seq {f g : Form} {s r : List Char} (h : (f >=> g) s = some r) :
    ∃ t, f s = some t := by
  obtain ⟨t, ht, -⟩ := Option.bind_eq_some_iff.mp h
  exact ⟨t, ht⟩

theorem spelled_prefix {w s r : List Char} (h : spelled w s = some r) :
    w.map fold <+: s.map fold := by
  induction w generalizing s with
  | nil => exact List.nil_prefix
  | cons c cs ih =>
    cases s with
    | nil => cases h
    | cons d ds =>
      rw [spelled] at h
      split at h
      · rename_i he
        exact List.cons_prefix_cons.mpr ⟨he, ih h⟩
      · cases h

end Form

namespace Pattern

/-- The pattern is looked for everywhere, and is read only where the word `w` can be. -/
structure StartsWith (pat : Pattern) (w : List Char) : Prop where
  anywhere : pat.atWordStart = false
  word_prefix : ∀ s r, pat.form s = some r → w.map fold <+: s.map fold
  no_feed : '\n' ∉ w.map fold

theorem startsWith_word {w : String} {f : Form} (h : '\n' ∉ w.toList.map fold)
    (hf : ∀ s r, f s = some r → ∃ t, Form.word w s = some t) : StartsWith ⟨f, false⟩ w.toList := by
  refine ⟨rfl, fun s r hr => ?_, h⟩
  obtain ⟨t, ht⟩ := hf s r hr
  exact Form.spelled_prefix ht

variable {pat : Pattern} {w : List Char}

/-- Nothing is found that starts in a line without the word. -/
theorem findFrom_line (hp : pat.StartsWith w) {line : List Char} (hl : mentions w line = false)
    (prev : Option Char) (s : List Char) :
    pat.findFrom prev (line ++ '\n' :: s) =
      (pat.findFrom (some '\n') s).map fun f => { f with before := line ++ '\n' :: f.before } := by
  have hnot : ¬ w.map fold <:+: line.map fold := by
    rw [← hasPart_iff]
    exact Bool.eq_false_iff.mp hl
  clear hl
  have hfold : (w.map fold).all (· != '\n') = true := by
    rw [List.all_eq_true]
    intro c hc
    exact bne_iff_ne.mpr fun he => hp.no_feed (he ▸ hc)
  have hread {prev : Option Char} {l : List Char} (hl : ¬ w.map fold <:+: l.map fold) :
      pat.readAt prev (l ++ '\n' :: s) = none := by
    rw [readAt, hp.anywhere, Bool.false_and, if_neg Bool.false_ne_true]
    cases hf : pat.form (l ++ '\n' :: s) with
    | none => rfl
    | some r =>
      have hpre := hp.word_prefix _ _ hf
      rw [List.map_append, List.map_cons] at hpre
      have hstop : Stops (· != '\n') (fold '\n' :: s.map fold) := stops_cons (by decide) _
      exact absurd (prefix_run hfold hstop hpre).isInfix hl
  induction line generalizing prev with
  | nil =>
    rw [List.nil_append, findFrom, show pat.readAt prev ('\n' :: s) = none from hread hnot]
    rfl
  | cons c cs ih =>
    have hcs : ¬ w.map fold <:+: cs.map fold := fun h => hnot (List.infix_cons_iff.mpr (.inr h))
    have hc : pat.readAt prev (c :: (cs ++ '\n' :: s)) = none := hread hnot
    rw [List.cons_append, findFrom, hc]
    simp only [ih (some c) hcs, Option.map_map]
    rfl

/-- A pattern that starts with a word is found behind lines that do not mention the word. -/
theorem find?_behind_lines (hp : pat.StartsWith w) {ls : List (List Char)}
    (hls : ∀ l ∈ ls, mentions w l = false) {here after : List Char} (hne : here ≠ [])
    (h : pat.form here = some after) :
    pat.find? (ls.flatMap (· ++ ['\n']) ++ here) =
      some ⟨ls.flatMap (· ++ ['\n']), here, after⟩ := by
  suffices hfrom : ∀ prev, pat.findFrom prev (ls.flatMap (· ++ ['\n']) ++ here) =
      some ⟨ls.flatMap (· ++ ['\n']), here, after⟩ from hfrom none
  induction ls with
  | nil =>
    intro prev
    cases here with
    | nil => exact absurd rfl hne
    | cons c cs =>
      have hread : pat.readAt prev (c :: cs) = some after := by
        rw [readAt, hp.anywhere, Bool.false_and, if_neg Bool.false_ne_true, h]
      rw [List.flatMap_nil, List.nil_append, findFrom, hread]
  | cons l ls ih =>
    intro prev
    have hrest := ih fun l' hl' => hls l' (List.mem_cons_of_mem _ hl')
    rw [List.flatMap_cons, List.append_assoc, List.append_assoc, List.singleton_append,
      findFrom_line hp (hls l List.mem_cons_self), hrest, Option.map_some]
    simp only [List.append_assoc, List.singleton_append]

end Pattern
end QueryBlend.Text
