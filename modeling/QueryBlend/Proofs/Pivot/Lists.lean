import QueryBlend.Pivot
import QueryBlend.Proofs.Text.Ahead
import QueryBlend.Proofs.Text.Seams
/-!
# Lists of dimensions

A pivot ranks its rows in layers, one to a line, and each line ends by opening the select of the next one.
The dimensions are the names in quotes in a list on one of these lines.

* **Lines.** No form by which lists are looked for takes an `F`, and none starts in `FROM (`, so what is read
  of a line ends with it: the first list of the layers is the list of the first layer that has one
  (`between?_layers`).
* **Names.** What a list says besides its names has no quotes in it. `Names` says of a text which names it
  adds to those behind it, and is kept where texts are put together.
* **In order.** `distinctSorted` answers the names that there are, each once and in their order
  (`ascending_distinctSorted`, `mem_distinctSorted`).
-/
namespace QueryBlend.Pivot
open Text Text.Form

variable {f start stop : Form} {a s t w : List Char}

/-! ## Forms that begin with a word -/

/-- The form is read only where the word `w` can be. -/
def Begins (f : Form) (w : List Char) : Prop := ∀ s r, f s = some r → w.map fold <+: s.map fold

theorem begins_word (w : String) (g : Form) : Begins (word w >=> g) w.toList := by
  intro s r hr
  obtain ⟨t, ht⟩ := exists_of_seq hr
  exact spelled_prefix ht

theorem begins_literal (w : String) (g : Form) : Begins (literal w >=> g) w.toList := by
  intro s r hr
  obtain ⟨t, ht⟩ := exists_of_seq hr
  rw [(behind?_eq_some_iff _ _ _).mp ht, List.map_append]
  exact List.prefix_append _ _

/-- In a text whose ends all clash with the word nothing is read, whatever is behind. -/
theorem Begins.eq_none (hf : Begins f w) (h : clashes (w.map fold) (a.map fold) = true) {x : List Char}
    (hx : x <:+ a) (hne : x ≠ []) (t : List Char) : f (x ++ t) = none := by
  refine Option.eq_none_iff_forall_ne_some.mpr fun r hr => ?_
  have hends := not_prefix_of_clashes h (hx.map fold) (by simpa using hne)
  have hpre := hf _ _ hr
  rw [List.map_append] at hpre
  rcases List.prefix_or_prefix_of_prefix hpre (List.prefix_append _ _) with hw | hw
  · exact hends.2 hw
  · exact hends.1 hw

/-! ## The first list of a text -/

/-- Nothing is found that starts in a text where no list can start. -/
theorem between?_skip (h : ∀ x, x <:+ a → x ≠ [] → start (x ++ t) = none) :
    between? start stop (a ++ t) = between? start stop t := by
  induction a with
  | nil => rfl
  | cons c a ih =>
    have hc : start (c :: (a ++ t)) = none := h (c :: a) (List.suffix_refl _) (List.cons_ne_nil _ _)
    rw [List.cons_append, between?, hc, ih fun x hx => h x (hx.trans (List.suffix_cons c a))]
    rfl

theorem between?_behind (hs : Begins start w) (h : clashes (w.map fold) (a.map fold) = true)
    (t : List Char) : between? start stop (a ++ t) = between? start stop t :=
  between?_skip fun _ hx hne => hs.eq_none h hx hne t

/-- Without the word that its lists begin with a text has none. -/
theorem between?_eq_none (hs : Begins start w) (h : ¬ w.map fold <:+: s.map fold) :
    between? start stop s = none := by
  have hskip : between? start stop (s ++ []) = between? start stop [] := by
    refine between?_skip fun x hx _ => Option.eq_none_iff_forall_ne_some.mpr fun r hr => h ?_
    rw [List.append_nil] at hr
    exact (hs _ _ hr).isInfix.trans (hx.map fold).isInfix
  rwa [List.append_nil] at hskip

/-- A list is read up to the first parenthesis if that ends it. -/
theorem upTo?_eq_some (hstop : Begins stop [')']) (hs : ')' ∉ s) (hfeed : '\n' ∉ s) (ht : t ≠ [])
    (hread : (stop t).isSome = true) : upTo? stop (s ++ t) = some s := by
  induction s with
  | nil =>
    cases t with
    | nil => exact absurd rfl ht
    | cons c t => rw [List.nil_append, upTo?, if_pos hread]
  | cons c s ih =>
    simp only [List.mem_cons, not_or] at hs hfeed
    have hc : stop (c :: (s ++ t)) = none := by
      refine Option.eq_none_iff_forall_ne_some.mpr fun r hr => ?_
      have hfold : fold ')' = fold c := (List.cons_prefix_cons.mp (hstop _ _ hr)).1
      exact hs.1 (eq_of_fold_eq (by decide) hfold.symm).symm
    rw [List.cons_append, upTo?, hc, ih hs.2 hfeed.2, if_neg (by simp), if_neg (Ne.symm hfeed.1)]
    rfl

/-! ## What a line ends with -/

/-- What each layer ends its line with. -/
def opening : List Char := "FROM (\n".toList

/-- The form takes nothing of what ends a line, and is not read there. -/
structure Stays (f : Form) : Prop where
  ends : Ends f 'F'
  starts : ∀ x, x <:+ opening → x ≠ [] → ∀ t, f (x ++ t) = none

theorem stays_of_begins (hends : Ends f 'F') (hf : Begins f w)
    (h : clashes (w.map fold) (opening.map fold) = true) : Stays f :=
  ⟨hends, fun _ hx hne t => hf.eq_none h hx hne t⟩

theorem opening_append (t : List Char) : opening ++ t = 'F' :: ("ROM (\n".toList ++ t) := by
  have hcut : opening = 'F' :: "ROM (\n".toList := by decide
  rw [hcut, List.cons_append]

/-- What is read in front of the end of a line does not depend on what is behind the line. -/
theorem Stays.exists_eq (h : Stays f) {r : List Char} (hr : f (s ++ (opening ++ t)) = some r) :
    ∃ r', r = r' ++ (opening ++ t) ∧ ∀ t', f (s ++ (opening ++ t')) = some (r' ++ (opening ++ t')) := by
  simp only [opening_append] at hr ⊢
  obtain ⟨r', hr', hall⟩ := h.ends _ _ _ hr
  exact ⟨r', hr', fun t' => hall _⟩

theorem Stays.isSome_eq (h : Stays f) (s t t' : List Char) :
    (f (s ++ (opening ++ t))).isSome = (f (s ++ (opening ++ t'))).isSome := by
  simp only [opening_append]
  exact h.ends.isSome_eq _ _ _

theorem upTo?_opening (h : Stays stop) (t : List Char) : upTo? stop (opening ++ t) = none := by
  have hend : ∀ x, x <:+ opening → x ≠ [] → upTo? stop (x ++ t) = none := by
    intro x
    induction x with
    | nil => exact fun _ hne => absurd rfl hne
    | cons c x ih =>
      intro hx hne
      have hstop : stop (c :: (x ++ t)) = none := h.starts _ hx hne t
      rw [List.cons_append, upTo?, hstop]
      by_cases hxe : x = []
      · -- the line feed is the last character
        subst hxe
        obtain ⟨y, hy⟩ := hx
        have hlast : opening.getLast? = some '\n' := by decide
        rw [← hy, List.getLast?_concat] at hlast
        simp [Option.some.inj hlast]
      · rw [ih ((List.suffix_cons c x).trans hx) hxe]
        simp
  exact hend opening (List.suffix_refl _) (by decide)

theorem upTo?_line (h : Stays stop) (s t t' : List Char) :
    upTo? stop (s ++ (opening ++ t)) = upTo? stop (s ++ (opening ++ t')) := by
  induction s with
  | nil => rw [List.nil_append, List.nil_append, upTo?_opening h, upTo?_opening h]
  | cons c s ih =>
    have hsome : (stop (c :: (s ++ (opening ++ t)))).isSome = (stop (c :: (s ++ (opening ++ t')))).isSome :=
      h.isSome_eq (c :: s) t t'
    rw [List.cons_append, List.cons_append, upTo?, upTo?, hsome, ih]

/-- What is found from a place on in front of the end of a line does not depend on what is behind it. -/
theorem bind_upTo?_line (hstart : Stays start) (hstop : Stays stop) (s t t' : List Char) :
    (start (s ++ (opening ++ t))).bind (upTo? stop) = (start (s ++ (opening ++ t'))).bind (upTo? stop) := by
  cases hr : start (s ++ (opening ++ t)) with
  | some r =>
    obtain ⟨r', rfl, hall⟩ := hstart.exists_eq hr
    rw [hall t']
    exact upTo?_line hstop r' t t'
  | none =>
    have hsome := hstart.isSome_eq s t t'
    rw [hr, Option.isSome_none, eq_comm, Option.isSome_eq_false_iff, Option.isNone_iff_eq_none] at hsome
    rw [hsome]

/-- The first list of a line and what is behind it. -/
theorem between?_line (hstart : Stays start) (hstop : Stays stop) (s t : List Char) :
    between? start stop (s ++ opening ++ t) =
      (between? start stop (s ++ opening)).or (between? start stop t) := by
  have hskip (t : List Char) : between? start stop (opening ++ t) = between? start stop t :=
    between?_skip fun x hx hne => hstart.starts x hx hne t
  induction s with
  | nil =>
    have hnone : between? start stop opening = none := by
      have := hskip []
      rwa [List.append_nil] at this
    rw [List.nil_append, hskip, hnone, Option.none_or]
  | cons c s ih =>
    have hbind := bind_upTo?_line hstart hstop (c :: s) t []
    rw [List.append_nil, List.cons_append, List.cons_append, ← List.append_assoc] at hbind
    rw [List.cons_append, List.cons_append, between?, between?, ih, hbind, Option.or_assoc]

/-- The first list of layers is that of the first layer with one. -/
theorem between?_layers (hstart : Stays start) (hstop : Stays stop) (ls : List (List Char)) (t : List Char) :
    between? start stop (ls.flatMap (· ++ opening) ++ t) =
      (ls.findSome? fun l => between? start stop (l ++ opening)).or (between? start stop t) := by
  induction ls with
  | nil => rfl
  | cons l ls ih =>
    rw [List.flatMap_cons, List.append_assoc, between?_line hstart hstop, ih, ← Option.or_assoc,
      List.findSome?_cons]
    cases between? start stop (l ++ opening) <;> rfl

/-! ## The lists of a pivot -/

theorem stays_rowListStart : Stays rowListStart :=
  stays_of_begins
    ((ends_word (by decide)).seq <| (ends_many (by decide +kernel)).seq <| (ends_word (by decide)).seq <|
      (ends_many (by decide +kernel)).seq <| (ends_literal (by decide)).seq <|
      (ends_many1 (by decide +kernel)).seq <| (ends_word (by decide)).seq <|
      (ends_many (by decide +kernel)).seq <| (ends_literal (by decide)).seq <|
      (ends_many (by decide +kernel)).seq <| (ends_word (by decide)).seq <|
      (ends_many1 (by decide +kernel)).seq <| (ends_word (by decide)).seq (ends_many1 (by decide +kernel)))
    (begins_word "MIN(" _) (by decide)

theorem stays_columnListStart : Stays columnListStart :=
  stays_of_begins
    ((ends_word (by decide)).seq <| (ends_many1 (by decide +kernel)).seq <| (ends_word (by decide)).seq <|
      (ends_many (by decide +kernel)).seq <| (ends_literal (by decide)).seq <|
      (ends_many (by decide +kernel)).seq <| (ends_word (by decide)).seq <|
      (ends_many1 (by decide +kernel)).seq <| (ends_word (by decide)).seq (ends_many1 (by decide +kernel)))
    (begins_word "DENSE_RANK()" _) (by decide)

/-- `) AS` and a name end a list. -/
theorem stays_listStop {name : String} (hname : fold 'F' ∉ name.toList.map fold) :
    Stays (literal ")" >=> blanks >=> word "AS" >=> blanks >=> word name >=> wordEnd) :=
  stays_of_begins
    ((ends_literal (by decide)).seq <| (ends_many1 (by decide +kernel)).seq <| (ends_word (by decide)).seq <|
      (ends_many1 (by decide +kernel)).seq <| (ends_word hname).seq (ends_wordEnd 'F'))
    (begins_literal ")" _) (by decide)

theorem stays_rowListStop : Stays rowListStop := stays_listStop (by decide)

theorem stays_columnListStop : Stays columnListStop := stays_listStop (by decide)

/-! ## Names -/

def inQuotes (name : List Char) : List Char := '\x22' :: (name ++ ['\x22'])

/-- The text adds these names to those of the text behind it. -/
def Names (s : List Char) (ns : List (List Char)) : Prop := ∀ t, quotedNames (s ++ t) = ns ++ quotedNames t

variable {ns ms : List (List Char)}

theorem Names.append (hs : Names s ns) (ht : Names t ms) : Names (s ++ t) (ns ++ ms) := by
  intro u
  rw [List.append_assoc, hs, ht, List.append_assoc]

theorem Names.eq (hs : Names s ns) : quotedNames s = ns := by
  have h := hs []
  rwa [List.append_nil, show quotedNames [] = [] from rfl, List.append_nil] at h

/-- Without quotes there are no names. -/
theorem names_nil (hs : '\x22' ∉ s) : Names s [] := by
  intro t
  induction s with
  | nil => rfl
  | cons c s ih =>
    simp only [List.mem_cons, not_or] at hs
    rw [List.nil_append, ← List.nil_append (quotedNames t), ← ih hs.2, quotedNames, quotedNames,
      List.cons_append, List.splitOn_cons_eq_if_modifyHead, if_neg (by simpa using Ne.symm hs.1)]
    obtain ⟨first, rest, he⟩ := List.exists_cons_of_ne_nil (List.splitOn_ne_nil '\x22' (s ++ t))
    rw [he]
    rfl

theorem names_inQuotes {name : List Char} (hne : name ≠ []) (h : '\x22' ∉ name) :
    Names (inQuotes name) [name] := by
  intro t
  have hsplit : (inQuotes name ++ t).splitOn '\x22' = [] :: name :: t.splitOn '\x22' := by
    have hcut : inQuotes name ++ t = [] ++ '\x22' :: (name ++ '\x22' :: t) := by simp [inQuotes]
    rw [hcut, List.splitOn_append_cons_self_of_not_mem List.not_mem_nil,
      List.splitOn_append_cons_self_of_not_mem h]
  obtain ⟨first, rest, he⟩ := List.exists_cons_of_ne_nil (List.splitOn_ne_nil '\x22' t)
  rw [quotedNames, quotedNames, hsplit, he, List.tail_cons, List.tail_cons, namesOfPieces,
    if_neg (by simpa using hne)]
  rfl

theorem names_joinWith {α : Type} {text name : α → List Char} {sep : List Char} (hsep : '\x22' ∉ sep)
    (is : List α) (h : ∀ i ∈ is, Names (text i) [name i]) :
    Names (joinWith sep (is.map text)) (is.map name) := by
  induction is with
  | nil => exact names_nil List.not_mem_nil
  | cons i is ih =>
    have hi := h i List.mem_cons_self
    cases is with
    | nil => exact hi
    | cons j js =>
      have hrest := ih fun k hk => h k (List.mem_cons_of_mem i hk)
      exact (hi.append (names_nil hsep)).append hrest

/-! ## Names in order -/

/-- Names without repeats in the order of their code points. -/
def Ascending (names : List (List Char)) : Prop :=
  names.Pairwise fun a b => String.ofList a < String.ofList b

def Several (names : List (List Char)) : Prop := ∃ a ∈ names, ∃ b ∈ names, a ≠ b

theorem mem_distinctSorted {name : List Char} : name ∈ distinctSorted ns ↔ name ∈ ns := by
  rw [distinctSorted, (List.mergeSort_perm _ _).mem_iff, List.mem_eraseDups]

theorem ascending_distinctSorted (ns : List (List Char)) : Ascending (distinctSorted ns) := by
  have hpair : (distinctSorted ns).Pairwise fun a b => decide (String.ofList a ≤ String.ofList b) = true :=
    List.pairwise_mergeSort
      (fun a b c hab hbc => by simpa using String.le_trans (by simpa using hab) (by simpa using hbc))
      (fun a b => by simpa using String.le_total (String.ofList a) (String.ofList b)) ns.eraseDups
  have hsorted : (distinctSorted ns).Pairwise fun a b => String.ofList a ≤ String.ofList b :=
    hpair.imp fun h => by simpa using h
  have hnodup : (distinctSorted ns).Nodup := (List.mergeSort_perm _ _).nodup_iff.mpr (nodup_eraseDups ns)
  refine (hsorted.and hnodup).imp fun {a b} h => String.not_le.mp fun hba => h.2 ?_
  exact String.ofList_injective (String.le_antisymm h.1 hba)

theorem one_lt_length_distinctSorted_iff : 1 < (distinctSorted ns).length ↔ Several ns := by
  constructor
  · intro h
    match hns : distinctSorted ns with
    | [] | [_] => simp [hns] at h
    | a :: b :: rest =>
      have hlt : String.ofList a < String.ofList b :=
        (List.pairwise_cons.mp (hns ▸ ascending_distinctSorted ns)).1 b List.mem_cons_self
      refine ⟨a, mem_distinctSorted.mp (by simp [hns]), b, mem_distinctSorted.mp (by simp [hns]), ?_⟩
      rintro rfl
      exact String.lt_irrefl _ hlt
  · rintro ⟨a, ha, b, hb, hab⟩
    rw [← mem_distinctSorted] at ha hb
    match hns : distinctSorted ns with
    | [] => simp [hns] at ha
    | [c] =>
      rw [hns, List.mem_singleton] at ha hb
      exact absurd (ha.trans hb.symm) hab
    | _ :: _ :: _ => simp

end QueryBlend.Pivot
