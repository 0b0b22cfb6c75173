/-!
# Dictionaries

Values under distinct texts, in the order in which the texts were first put in.

Results:
* `get?_insert`: what is put in is found, and all else is found as before.
* `keys_insert`: a new text comes last, a known one keeps its place.
* `get?_erase`: what is taken out is gone, and all else is found as before.
* `get?_eq_some_iff`, `has_iff`: what is found are the entries.
* `get?_ofList`: of entries under distinct texts each one counts.
-/
namespace QueryBlend

/-- Values under distinct texts. -/
structure Dict (α : Type) where
  entries : List (String × α) := []
  distinct : (entries.map Prod.fst).Nodup := by exact List.nodup_nil

namespace Dict

variable {α : Type}

theorem ext {d e : Dict α} (h : d.entries = e.entries) : d = e := by
  cases d; cases e; cases h; rfl

instance [DecidableEq α] : DecidableEq (Dict α) := fun d e =>
  if h : d.entries = e.entries then isTrue (ext h) else isFalse fun he => h (he ▸ rfl)

def empty : Dict α := {}

instance : Inhabited (Dict α) := ⟨empty⟩

def keys (d : Dict α) : List String := d.entries.map Prod.fst

/-- The first value under `k` among entries. -/
def look (k : String) : List (String × α) → Option α
  | [] => none
  | e :: es => if e.1 = k then some e.2 else look k es

def get? (d : Dict α) (k : String) : Option α := look k d.entries

def has (d : Dict α) (k : String) : Bool := (d.get? k).isSome

/-- The entries with `v` under `k`: in the place of the value there, or at the end. -/
def put (k : String) (v : α) : List (String × α) → List (String × α)
  | [] => [(k, v)]
  | e :: es => if e.1 = k then (k, v) :: es else e :: put k v es

theorem map_put (k : String) (v : α) (es : List (String × α)) :
    (put k v es).map Prod.fst =
      if k ∈ es.map Prod.fst then es.map Prod.fst else es.map Prod.fst ++ [k] := by
  induction es with
  | nil => rfl
  | cons e es ih =>
    rw [put]
    by_cases he : e.1 = k
    · simp [he]
    · have : ¬ k = e.1 := fun h => he h.symm
      simp only [he, if_false, List.map_cons, ih, List.mem_cons, this, false_or]
      split <;> simp

theorem put_new {k : String} {es : List (String × α)} (h : k ∉ es.map Prod.fst) (v : α) :
    put k v es = es ++ [(k, v)] := by
  induction es with
  | nil => rfl
  | cons e es ih =>
    rw [List.map_cons, List.mem_cons, not_or] at h
    rw [put, if_neg (Ne.symm h.1), ih h.2, List.cons_append]

def insert (d : Dict α) (k : String) (v : α) : Dict α where
  entries := put k v d.entries
  distinct := by
    rw [map_put]
    split
    · exact d.distinct
    · next h =>
      rw [List.nodup_append]
      exact ⟨d.distinct, by simp, fun a ha b hb e => h (by simp_all)⟩

def erase (d : Dict α) (k : String) : Dict α where
  entries := d.entries.filter fun e => e.1 != k
  distinct := by
    have : (d.entries.filter fun e => e.1 != k).map Prod.fst =
        (d.entries.map Prod.fst).filter (· != k) := by
      rw [List.filter_map]; rfl
    rw [this]
    exact d.distinct.filter _

/-- The dictionary of entries of which a later one counts. -/
def ofList (es : List (String × α)) : Dict α := es.foldl (fun d e => d.insert e.1 e.2) empty

/-- The entries in the order of their texts. -/
def sorted (d : Dict α) : List (String × α) :=
  d.entries.mergeSort fun a b => decide (a.1 ≤ b.1)

theorem keys_insert (d : Dict α) (k : String) (v : α) :
    (d.insert k v).keys = if k ∈ d.keys then d.keys else d.keys ++ [k] :=
  map_put k v d.entries

theorem look_put (k l : String) (v : α) (es : List (String × α)) :
    look l (put k v es) = if l = k then some v else look l es := by
  induction es with
  | nil =>
    by_cases h : l = k
    · simp [put, look, h]
    · simp [put, look, h, Ne.symm h]
  | cons e es ih =>
    rw [put]
    by_cases he : e.1 = k
    · by_cases hl : l = k
      · simp [he, look, hl]
      · rw [if_pos he, if_neg hl, look, if_neg (Ne.symm hl), look, if_neg (he ▸ Ne.symm hl)]
    · by_cases hl : e.1 = l
      · have : ¬ l = k := fun h => he (hl.trans h)
        simp [look, hl, this]
      · simp [look, he, hl, ih]

theorem get?_insert (d : Dict α) (k l : String) (v : α) :
    (d.insert k v).get? l = if l = k then some v else d.get? l :=
  look_put k l v d.entries

theorem get?_erase (d : Dict α) (k l : String) :
    (d.erase k).get? l = if l = k then none else d.get? l := by
  simp only [get?, erase]
  induction d.entries with
  | nil => simp [look]
  | cons e es ih =>
    by_cases he : e.1 = k
    · by_cases hl : l = k
      · simpa [he, hl] using ih
      · have : ¬ e.1 = l := fun h => hl (h.symm.trans he)
        rw [List.filter_cons_of_neg (by simpa using he), ih, look, if_neg this]
    · rw [List.filter_cons_of_pos (by simpa using he), look, look]
      by_cases hl : e.1 = l
      · have : ¬ l = k := fun h => he (hl.trans h)
        simp [hl, this]
      · simp [hl, ih]

theorem look_eq_some_iff {es : List (String × α)} (h : (es.map Prod.fst).Nodup) (k : String) (v : α) :
    look k es = some v ↔ (k, v) ∈ es := by
  induction es with
  | nil => simp [look]
  | cons e es ih =>
    rw [List.map_cons, List.nodup_cons] at h
    rw [look, List.mem_cons]
    split
    · rename_i he
      subst he
      have hn : (e.1, v) ∉ es := fun hm => h.1 (List.mem_map.mpr ⟨_, hm, rfl⟩)
      simp [hn, Prod.ext_iff, eq_comm]
    · rename_i he
      have hn : (k, v) ≠ e := fun e' => he (e' ▸ rfl)
      simp [ih h.2, hn]

theorem get?_eq_some_iff (d : Dict α) (k : String) (v : α) :
    d.get? k = some v ↔ (k, v) ∈ d.entries :=
  look_eq_some_iff d.distinct k v

theorem get?_eq_none_iff (d : Dict α) (k : String) : d.get? k = none ↔ k ∉ d.keys := by
  simp only [get?, keys]
  induction d.entries with
  | nil => simp [look]
  | cons e es ih =>
    rw [look, List.map_cons, List.mem_cons]
    by_cases h : e.1 = k
    · simp [h]
    · rw [if_neg h, ih, not_or, and_iff_right (Ne.symm h)]

theorem has_iff (d : Dict α) (k : String) : d.has k = true ↔ k ∈ d.keys := by
  have := d.get?_eq_none_iff k
  rw [has]
  cases h : d.get? k with
  | none => simpa [h] using this
  | some v => simpa [h] using this

theorem look_eq_none {es : List (String × α)} {k : String} (h : k ∉ es.map Prod.fst) :
    look k es = none := by
  induction es with
  | nil => rfl
  | cons e es ih =>
    rw [List.map_cons, List.mem_cons, not_or] at h
    rw [look, if_neg (Ne.symm h.1), ih h.2]

theorem get?_ofList {es : List (String × α)} (h : (es.map Prod.fst).Nodup) (k : String) :
    (ofList es).get? k = look k es := by
  have from_start : ∀ d : Dict α, (es.foldl (fun d e => d.insert e.1 e.2) d).get? k =
      (look k es).or (d.get? k) := by
    induction es with
    | nil => intro d; rfl
    | cons e es ih =>
      intro d
      rw [List.map_cons, List.nodup_cons] at h
      rw [List.foldl_cons, ih h.2, get?_insert, look]
      by_cases he : e.1 = k
      · rw [if_pos he, if_pos he.symm, look_eq_none (he ▸ h.1)]
        rfl
      · rw [if_neg he, if_neg (Ne.symm he)]
  rw [ofList, from_start]
  cases look k es <;> rfl

end Dict
end QueryBlend
