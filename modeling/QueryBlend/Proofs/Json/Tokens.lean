import QueryBlend.Json.Token
import QueryBlend.Json.Value
/-!
# What is written is read into its tokens

**Texts.** Each character of a text is read back from what is written for it, be that the character, a
short escape or its code (`readText_escape`), and so is the whole text (`readText_escaped`).

**Values.** `Value.tokens` are the tokens of a value. They are what is read of a value as it is written,
whatever follows it: without blanks (`tokens_render`), and over lines (`tokens_renderLines`). Both go by
induction on the value, with one part for lists and one for objects.
-/
namespace QueryBlend.Json
open Text

/-! ## Texts -/

theorem hexDigit?_hexDigit : ∀ n < 16, hexDigit? (hexDigit n) = some n := by decide

/-- The code of a control character is read from four digits. -/
theorem hexCode_code {n : Nat} (h : n < 0x20) (rest : List Char) :
    hexCode ('0' :: '0' :: hexDigit (n / 16) :: hexDigit (n % 16) :: rest) = .ok n := by
  have hsize (c : Char) : 0 < c.utf8Size := Char.utf8Size_pos c
  have hlong : ¬ byteCount ('0' :: '0' :: hexDigit (n / 16) :: hexDigit (n % 16) :: rest) < 4 := by
    have := hsize '0'
    have := hsize (hexDigit (n / 16))
    have := hsize (hexDigit (n % 16))
    simp only [byteCount]
    omega
  have hzero : hexDigit? '0' = some 0 := by decide
  have hhigh := hexDigit?_hexDigit (n / 16) (by omega)
  have hlow := hexDigit?_hexDigit (n % 16) (by omega)
  rw [hexCode, if_neg hlong]
  simp only [List.take_succ_cons, List.take_zero, List.mapM_cons, List.mapM_nil, hzero, hhigh, hlow,
    Option.bind_eq_bind, Option.bind_some, Option.pure_def]
  congr 1
  omega

/-- A character is read back from what is written for it. -/
theorem readText_escape (seen : List Char) (c : Char) (rest : List Char) :
    readText true seen (escape c ++ rest) = readText true (c :: seen) rest := by
  have short (e : Char) (he : shortEscape? e = some c) (hu : e ≠ 'u') :
      readText true seen (['\\', e] ++ rest) = readText true (c :: seen) rest := by
    rw [List.cons_append, List.singleton_append, readText, if_neg (by decide), if_pos rfl]
    simp only [hu, if_false, he]
  unfold escape
  split
  · subst c; exact short '"' rfl (by decide)
  split
  · subst c; exact short '\\' rfl (by decide)
  split
  · subst c; exact short 'b' rfl (by decide)
  split
  · subst c; exact short 'f' rfl (by decide)
  split
  · subst c; exact short 'n' rfl (by decide)
  split
  · subst c; exact short 'r' rfl (by decide)
  split
  · subst c; exact short 't' rfl (by decide)
  split
  · rename_i hcontrol
    have hlow : isLowSurrogate c.toNat = false := by simp [isLowSurrogate]; omega
    have hhigh : isHighSurrogate c.toNat = false := by simp [isHighSurrogate]; omega
    simp only [List.cons_append, List.nil_append]
    rw [readText, if_neg (by decide), if_pos rfl]
    simp only [if_true, hexCode_code hcontrol, hlow, hhigh, Bool.false_eq_true, if_false,
      List.drop_succ_cons, List.drop_zero, Char.ofNat_toNat]
  · rename_i hquote hslash _ _ _ _ _ hcontrol
    rw [List.singleton_append, readText.eq_def]
    simp only [hquote, hslash, hcontrol, if_false]

theorem readText_escaped (t seen rest : List Char) :
    readText true seen (t.flatMap escape ++ '"' :: rest) = (.text (seen.reverse ++ t), rest) := by
  induction t generalizing seen with
  | nil => rw [List.flatMap_nil, List.nil_append, readText.eq_def]; simp
  | cons c t ih =>
    rw [List.flatMap_cons, List.append_assoc, readText_escape, ih, List.reverse_cons,
      List.append_assoc, List.singleton_append]

/-! ## Single tokens -/

theorem tokens_space {c : Char} (h : isSpace c = true) (cs : List Char) :
    tokens (c :: cs) = tokens cs := by
  rw [tokens, if_pos h]

theorem tokens_cons {c : Char} (hspace : isSpace c = false) {cs rest : List Char} {t : Token}
    (hread : readToken c cs = (t, rest)) (hbroken : t.isBroken = false) :
    tokens (c :: cs) = t :: tokens rest := by
  rw [tokens]
  simp [hspace, hread, hbroken]

theorem tokens_mark {c : Char} {t : Token} (h : punctuation? c = some t) (hspace : isSpace c = false)
    (hbroken : t.isBroken = false) (cs : List Char) : tokens (c :: cs) = t :: tokens cs :=
  tokens_cons hspace (by rw [readToken, h]) hbroken

theorem tokens_openList (s : List Char) : tokens ('[' :: s) = .openList :: tokens s :=
  tokens_mark rfl rfl rfl s

theorem tokens_closeList (s : List Char) : tokens (']' :: s) = .closeList :: tokens s :=
  tokens_mark rfl rfl rfl s

theorem tokens_openObject (s : List Char) : tokens ('\x7b' :: s) = .openObject :: tokens s :=
  tokens_mark rfl rfl rfl s

theorem tokens_closeObject (s : List Char) : tokens ('\x7d' :: s) = .closeObject :: tokens s :=
  tokens_mark rfl rfl rfl s

theorem tokens_colon (s : List Char) : tokens (':' :: s) = .colon :: tokens s :=
  tokens_mark rfl rfl rfl s

theorem tokens_comma (s : List Char) : tokens (',' :: s) = .comma :: tokens s :=
  tokens_mark rfl rfl rfl s

theorem tokens_quoted (t s : List Char) : tokens (quoted t ++ s) = .text t :: tokens s := by
  rw [quoted, List.cons_append, List.append_assoc, List.singleton_append]
  refine tokens_cons rfl ?_ rfl
  have hmark : punctuation? '"' = none := rfl
  rw [readToken, hmark]
  exact readText_escaped t [] s

theorem tokens_indentation (level : Nat) (s : List Char) :
    tokens (indentation level ++ s) = tokens s := by
  have hblanks (n : Nat) : tokens (List.replicate n ' ' ++ s) = tokens s := by
    induction n with
    | zero => rfl
    | succ n ih => rw [List.replicate_succ, List.cons_append, tokens_space rfl, ih]
  rw [indentation, List.cons_append, tokens_space rfl, hblanks]

theorem tokens_bool (b : Bool) (s : List Char) :
    tokens ((Value.bool b).render ++ s) = .bool b :: tokens s := by
  cases b with
  | true => exact tokens_cons rfl rfl rfl
  | false => exact tokens_cons rfl rfl rfl

/-! ## Values -/

mutual

def Value.tokens : Value → List Token
  | .bool b => [.bool b]
  | .text t => [.text t]
  | .list [] => [.openList, .closeList]
  | .list (v :: vs) => .openList :: (v.tokens ++ itemTokens vs)
  | .object [] => [.openObject, .closeObject]
  | .object ((k, v) :: ms) => .openObject :: .text k :: .colon :: (v.tokens ++ memberTokens ms)

/-- The tokens of the values behind the first one, and of the end of the list. -/
def itemTokens : List Value → List Token
  | [] => [.closeList]
  | v :: vs => .comma :: (v.tokens ++ itemTokens vs)

/-- The tokens of the members behind the first one, and of the end of the object. -/
def memberTokens : List (List Char × Value) → List Token
  | [] => [.closeObject]
  | (k, v) :: ms => .comma :: .text k :: .colon :: (v.tokens ++ memberTokens ms)

end

mutual

theorem tokens_render (v : Value) (s : List Char) : tokens (v.render ++ s) = v.tokens ++ tokens s := by
  match v with
  | .bool b => rw [tokens_bool, Value.tokens, List.singleton_append]
  | .text t => rw [Value.render, Value.tokens, tokens_quoted, List.singleton_append]
  | .list [] =>
    simp only [Value.render, Value.tokens, List.cons_append, List.nil_append, tokens_openList,
      tokens_closeList]
  | .list (v :: vs) =>
    simp only [Value.render, Value.tokens, List.cons_append, List.append_assoc, tokens_openList,
      tokens_render v, tokens_renderItems vs]
  | .object [] =>
    simp only [Value.render, Value.tokens, List.cons_append, List.nil_append, tokens_openObject,
      tokens_closeObject]
  | .object ((k, v) :: ms) =>
    simp only [Value.render, Value.tokens, List.cons_append, List.append_assoc, tokens_openObject,
      tokens_quoted, tokens_colon, tokens_render v, tokens_renderMembers ms]

theorem tokens_renderItems (vs : List Value) (s : List Char) :
    tokens (renderItems vs ++ s) = itemTokens vs ++ tokens s := by
  match vs with
  | [] => simp only [renderItems, itemTokens, List.cons_append, List.nil_append, tokens_closeList]
  | v :: vs =>
    simp only [renderItems, itemTokens, List.cons_append, List.append_assoc, tokens_comma,
      tokens_render v, tokens_renderItems vs]

theorem tokens_renderMembers (ms : List (List Char × Value)) (s : List Char) :
    tokens (renderMembers ms ++ s) = memberTokens ms ++ tokens s := by
  match ms with
  | [] => simp only [renderMembers, memberTokens, List.cons_append, List.nil_append, tokens_closeObject]
  | (k, v) :: ms =>
    simp only [renderMembers, memberTokens, List.cons_append, List.append_assoc, tokens_comma,
      tokens_quoted, tokens_colon, tokens_render v, tokens_renderMembers ms]

end

mutual

theorem tokens_renderLines (level : Nat) (v : Value) (s : List Char) :
    tokens (v.renderLines level ++ s) = v.tokens ++ tokens s := by
  match v with
  | .bool true => exact tokens_bool true s
  | .bool false => exact tokens_bool false s
  | .text t => rw [Value.renderLines, Value.tokens, tokens_quoted, List.singleton_append]
  | .list [] =>
    simp only [Value.renderLines, Value.tokens, List.cons_append, List.nil_append, tokens_openList,
      tokens_closeList]
  | .list (v :: vs) =>
    simp only [Value.renderLines, Value.tokens, List.cons_append, List.append_assoc, tokens_openList,
      tokens_indentation, tokens_renderLines (level + 1) v, tokens_itemLines level vs]
  | .object [] =>
    simp only [Value.renderLines, Value.tokens, List.cons_append, List.nil_append, tokens_openObject,
      tokens_closeObject]
  | .object ((k, v) :: ms) =>
    have hblank (s : List Char) : tokens (' ' :: s) = tokens s := tokens_space rfl s
    simp only [Value.renderLines, Value.tokens, List.cons_append, List.append_assoc, tokens_openObject,
      tokens_indentation, tokens_quoted, tokens_colon, hblank, tokens_renderLines (level + 1) v,
      tokens_memberLines level ms]

theorem tokens_itemLines (level : Nat) (vs : List Value) (s : List Char) :
    tokens (itemLines level vs ++ s) = itemTokens vs ++ tokens s := by
  match vs with
  | [] =>
    simp only [itemLines, itemTokens, List.cons_append, List.nil_append, List.append_assoc,
      tokens_indentation, tokens_closeList]
  | v :: vs =>
    simp only [itemLines, itemTokens, List.cons_append, List.append_assoc, tokens_comma,
      tokens_indentation, tokens_renderLines (level + 1) v, tokens_itemLines level vs]

theorem tokens_memberLines (level : Nat) (ms : List (List Char × Value)) (s : List Char) :
    tokens (memberLines level ms ++ s) = memberTokens ms ++ tokens s := by
  match ms with
  | [] =>
    simp only [memberLines, memberTokens, List.cons_append, List.nil_append, List.append_assoc,
      tokens_indentation, tokens_closeObject]
  | (k, v) :: ms =>
    have hblank (s : List Char) : tokens (' ' :: s) = tokens s := tokens_space rfl s
    simp only [memberLines, memberTokens, List.cons_append, List.append_assoc, tokens_comma,
      tokens_indentation, tokens_quoted, tokens_colon, hblank, tokens_renderLines (level + 1) v,
      tokens_memberLines level ms]

end

end QueryBlend.Json
