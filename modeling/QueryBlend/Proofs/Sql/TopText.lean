import QueryBlend.Proofs.Sql.Closed
/-!
# The top-level text of a scan

A mask says of each character whether it is top-level code. `topTo` keeps the characters of which it
says so, and `spread` gives each byte what the mask says of its character. Both go over joins of texts
in the way the mask does (`topTo_append`, `spread_append`).

* `topBytes_eq_encode`: the top-level bytes of a text are the bytes of its top-level characters.
* `byteMask_middle`, `getElem?_byteMask`: the bytes of a part of a text are masked as the part is, and the
  first byte of a character as the character is.
* `isTopAt_append`: a place behind a part of a text, given by its offset in bytes.
-/
namespace QueryBlend.Sql
open Text

/-- The characters of a text that are top-level code, when the scan is in `st` and `next` follows. -/
def topTo (next : Option Char) (st : State) (s : List Char) : List Char :=
  ((s.zip (maskTo next st s)).filter Prod.snd).map Prod.fst

/-- The UTF-8 form of a text. -/
def encode (s : List Char) : List UInt8 := s.flatMap String.utf8EncodeChar

/-- The bytes of a SQL text that are top-level code. -/
def topBytes (sql : List Char) : List UInt8 :=
  (((encode sql).zip (byteMask sql)).filter Prod.snd).map Prod.fst

/-- What a mask says of each byte. -/
def spread (s : List Char) (m : List Bool) : List Bool :=
  (s.zip m).flatMap fun (c, b) => List.replicate c.utf8Size b

theorem byteMask_eq_spread (sql : List Char) : byteMask sql = spread sql (mask sql) := rfl

/-! ## Joins -/

theorem topTo_append (next : Option Char) (st : State) (s t : List Char) :
    topTo next st (s ++ t) =
      topTo (t.head?.or next) st s ++ topTo next (runTo (t.head?.or next) st s) t := by
  rw [topTo, maskTo_append, List.zip_append (maskTo_length _ _ _).symm, List.filter_append,
    List.map_append]
  rfl

theorem spread_append {s t : List Char} {m n : List Bool} (h : m.length = s.length) :
    spread (s ++ t) (m ++ n) = spread s m ++ spread t n := by
  rw [spread, List.zip_append h.symm, List.flatMap_append]
  rfl

theorem byteCount_append (s t : List Char) : byteCount (s ++ t) = byteCount s + byteCount t := by
  induction s with
  | nil => rw [List.nil_append, byteCount, Nat.zero_add]
  | cons c cs ih => rw [List.cons_append, byteCount, byteCount, ih, Nat.add_assoc]

theorem spread_length {s : List Char} {m : List Bool} (h : m.length = s.length) :
    (spread s m).length = byteCount s := by
  induction s generalizing m with
  | nil => rw [spread, List.zip_nil_left, List.flatMap_nil]; rfl
  | cons c cs ih =>
    cases m with
    | nil => cases h
    | cons b bs =>
      have hm : bs.length = cs.length := Nat.succ.inj h
      rw [byteCount, ← ih hm, spread, List.zip_cons_cons, List.flatMap_cons, List.length_append,
        List.length_replicate]
      rfl

theorem spread_replicate (s : List Char) (b : Bool) :
    spread s (List.replicate s.length b) = List.replicate (byteCount s) b := by
  induction s with
  | nil => rfl
  | cons c cs ih =>
    rw [List.length_cons, List.replicate_succ, byteCount, ← List.replicate_append_replicate, ← ih]
    rfl

theorem getElem?_spread {c : Char} (before after : List Char) {m : List Bool}
    (h : m.length = (before ++ c :: after).length) :
    (spread (before ++ c :: after) m)[byteCount before]? = m[before.length]? := by
  induction before generalizing m with
  | nil =>
    cases m with
    | nil => cases h
    | cons b bs =>
      rw [spread, List.nil_append, List.zip_cons_cons, List.flatMap_cons, byteCount,
        List.getElem?_append_left (by simpa using c.utf8Size_pos)]
      simp [c.utf8Size_pos]
  | cons d ds ih =>
    cases m with
    | nil => cases h
    | cons b bs =>
      have hspread : spread (d :: ds ++ c :: after) (b :: bs) =
          List.replicate d.utf8Size b ++ spread (ds ++ c :: after) bs := rfl
      rw [hspread, byteCount, List.getElem?_append_right (by simp), List.length_replicate,
        Nat.add_sub_cancel_left, ih (Nat.succ.inj h), List.length_cons, List.getElem?_cons_succ]

/-- The first byte of a character is masked as the character is. -/
theorem getElem?_byteMask (before : List Char) (c : Char) (after : List Char) :
    (byteMask (before ++ c :: after))[byteCount before]? = (mask (before ++ c :: after))[before.length]? :=
  getElem?_spread before after (mask_length _)

/-- Where a part of a text is, its bytes are masked as the part is. -/
theorem byteMask_middle (front part behind : List Char) {m : List Bool}
    (h : maskTo behind.head? (runTo (part ++ behind).head? {} front) part = m) {i : Nat}
    (hi : i < byteCount part) :
    (byteMask (front ++ part ++ behind))[byteCount front + i]? = (spread part m)[i]? := by
  have hm : m.length = part.length := by rw [← h, maskTo_length]
  have hf (next : Option Char) : (spread front (maskTo next {} front)).length = byteCount front :=
    spread_length (maskTo_length _ _ _)
  rw [List.append_assoc, byteMask_eq_spread, mask, maskTo_append, maskTo_append, Option.or_none,
    Option.or_none, h, spread_append (maskTo_length _ _ _), spread_append hm,
    List.getElem?_append_right (by rw [hf]; omega), hf, Nat.add_sub_cancel_left,
    List.getElem?_append_left (by rw [spread_length hm]; exact hi)]

/-! ## Places in bytes -/

theorem firstBytes?_append (s t : List Char) : firstBytes? (byteCount s) (s ++ t) = some s := by
  induction s with
  | nil => cases t <;> rfl
  | cons c cs ih =>
    have hpos : 0 < c.utf8Size := c.utf8Size_pos
    obtain ⟨n, hn⟩ : ∃ n, c.utf8Size + byteCount cs = n + 1 := Nat.exists_eq_succ_of_ne_zero (by omega)
    have hrest : n + 1 - c.utf8Size = byteCount cs := by omega
    have hle : c.utf8Size ≤ n + 1 := by omega
    rw [byteCount, hn, List.cons_append, firstBytes?, if_pos hle, hrest, ih, Option.map_some]

theorem firstBytes?_eq_some {n : Nat} {s before : List Char} (h : firstBytes? n s = some before) :
    before <+: s ∧ byteCount before = n := by
  induction s generalizing n before with
  | nil =>
    cases n with
    | zero =>
      cases h
      exact ⟨List.prefix_refl _, rfl⟩
    | succ n => cases h
  | cons c cs ih =>
    cases n with
    | zero =>
      cases h
      exact ⟨List.nil_prefix, rfl⟩
    | succ n =>
      rw [firstBytes?] at h
      split at h
      · rename_i hle
        obtain ⟨rest, hrest, rfl⟩ := Option.map_eq_some_iff.mp h
        obtain ⟨hfront, hcount⟩ := ih hrest
        exact ⟨List.cons_prefix_cons.mpr ⟨rfl, hfront⟩, by rw [byteCount, hcount]; omega⟩
      · cases h

/-- What stands behind the first part of a text is at top level if the scan of that part ends there. -/
theorem isTopAt_append (s t : List Char) : isTopAt (s ++ t) (byteCount s) = endsAtTop s := by
  rw [isTopAt, firstBytes?_append]

theorem isTopAt_byteOffset (sql : List Char) (i : Nat) :
    isTopAt sql (byteOffset sql i) = endsAtTop (sql.take i) := by
  have h := isTopAt_append (sql.take i) (sql.drop i)
  rwa [List.take_append_drop] at h

/-! ## Top-level bytes -/

theorem filter_zip_replicate {α : Type} (xs : List α) (b : Bool) :
    ((xs.zip (List.replicate xs.length b)).filter Prod.snd).map Prod.fst = if b then xs else [] := by
  induction xs with
  | nil => cases b <;> rfl
  | cons x xs ih =>
    rw [List.length_cons, List.replicate_succ, List.zip_cons_cons]
    cases b
    · simpa using ih
    · simpa using ih

theorem topBytes_eq_encode (sql : List Char) : topBytes sql = encode (topTo none {} sql) := by
  suffices h : ∀ st, (((encode sql).zip (spread sql (maskTo none st sql))).filter Prod.snd).map Prod.fst =
      encode (topTo none st sql) from h {}
  induction sql with
  | nil => intro st; rfl
  | cons c cs ih =>
    intro st
    have hl : (String.utf8EncodeChar c).length = c.utf8Size := String.length_utf8EncodeChar c
    have hc : encode (c :: cs) = String.utf8EncodeChar c ++ encode cs := rfl
    rw [hc, maskTo]
    generalize hb : (st.isCode c (cs.head?.or none) && st.depth == 0) = b
    have hs (m : List Bool) : spread (c :: cs) (b :: m) =
        List.replicate (String.utf8EncodeChar c).length b ++ spread cs m := by rw [hl]; rfl
    have ht : topTo none st (c :: cs) =
        (if b then [c] else []) ++ topTo none (st.step c (cs.head?.or none)) cs := by
      rw [topTo, maskTo, hb]
      cases b <;> rfl
    rw [hs, List.zip_append (by simp), List.filter_append, List.map_append, filter_zip_replicate, ih, ht]
    cases b
    · rfl
    · simp [encode]

/-! ## Texts with a known mask -/

theorem topTo_of_mask {next : Option Char} {st : State} {s : List Char} {b : Bool}
    (h : maskTo next st s = List.replicate s.length b) : topTo next st s = if b then s else [] := by
  rw [topTo, h, filter_zip_replicate]

theorem topTo_plain {s : List Char} (h : s.all isPlain = true) (next : Option Char) :
    topTo next (codeAt 0) s = s := topTo_of_mask (maskTo_plain h 0 next)

theorem topTo_wrapped {s : List Char} (h : isClosed s = true) (next : Option Char) :
    topTo next (codeAt 0) (wrapped s) = [] := topTo_of_mask (maskTo_wrapped h next)

end QueryBlend.Sql
