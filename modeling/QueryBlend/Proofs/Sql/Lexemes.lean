import QueryBlend.Proofs.Sql.Comment
/-!
# What a scan makes of SQL that is put together from tokens

A `Lexeme` is a piece of SQL of one kind: code, a quote, a comment, or tokens in parentheses. Each kind
carries what its text must not contain. `topMarksAll` says of each byte of tokens one behind the other
whether it is code outside of all parentheses, and this is read off the tokens and not off a scan.

A scan does not keep to the borders of tokens. Where two quotes with the same mark meet, it takes the mark
that closes the first and the one that opens the second for one mark written twice; a slash of code goes in
front of the slash of a block comment. So a token is not scanned by itself: `Reads` says how a scan gets
over a text with the rest of the SQL in sight.

**Tokens.** One lemma for each kind: `hides_quoted`, `hides_bracketed`, `reads_lineComment`,
`hides_blockComment`, `reads_code`. Where a mark is taken as written twice, the scan of the rest goes on
from another state, but to the same end (`hides_close`).

**Sequences.** Induction on the tokens and on their nesting, at every depth (`reads_all`).

* `scan_renderAll`: the scan of tokens ends where it starts, and masks their bytes as the tokens say.
-/
namespace QueryBlend.Sql
open Text

/-- The kinds of quotes in which a backslash keeps the quote open. -/
inductive QuoteKind where
  | single
  | double
  | backtick
  deriving DecidableEq, Repr

namespace QuoteKind

def mark : QuoteKind → Char
  | single => '\x27'
  | double => '\x22'
  | backtick => '\x60'

def mode : QuoteKind → Mode
  | single => .single
  | double => .double
  | backtick => .backtick

end QuoteKind

/-- A piece of what stands between marks: a character that stands for itself, the mark written twice, or
any character behind a backslash. -/
inductive Piece where
  | plain (c : Char)
  | doubled
  | escaped (c : Char)
  deriving DecidableEq, Repr

namespace Piece

def render (k : QuoteKind) : Piece → List Char
  | plain c => [c]
  | doubled => [k.mark, k.mark]
  | escaped c => ['\\', c]

def isIn (k : QuoteKind) : Piece → Bool
  | plain c => c != k.mark && c != '\\'
  | doubled => k != .backtick
  | escaped _ => true

end Piece

def codeStops : List Char := ['\x27', '\x22', '\x60', '[', '(', ')']

/-- Whether a text is code of one piece: without quotes, parentheses and openings of comments. -/
def isCodeText (s : List Char) : Bool :=
  s.all (fun c => !codeStops.contains c) &&
    !hasPart "--".toList s && !hasPart "/*".toList s

/-- The tokens of SQL, as far as a scan tells them apart. -/
inductive Lexeme where
  | code (s : List Char) (h : isCodeText s = true)
  | quoted (k : QuoteKind) (ps : List Piece) (h : ps.all (Piece.isIn k) = true)
  | bracketed (s : List Char) (h : ']' ∉ s)
  /-- Up to the end of its line, and the line feed. -/
  | lineComment (s : List Char) (h : '\n' ∉ s)
  | blockComment (s : List Char) (h : hasPart "*/".toList s = false)
  | parens (ts : List Lexeme)

mutual

def Lexeme.render : Lexeme → List Char
  | .code s _ => s
  | .quoted k ps _ => k.mark :: (ps.flatMap (Piece.render k) ++ [k.mark])
  | .bracketed s _ => '[' :: (s ++ [']'])
  | .lineComment s _ => '-' :: '-' :: (s ++ ['\n'])
  | .blockComment s _ => '/' :: '*' :: (s ++ ['*', '/'])
  | .parens ts => '(' :: (renderAll ts ++ [')'])

def renderAll : List Lexeme → List Char
  | [] => []
  | t :: ts => t.render ++ renderAll ts

end

mutual

/-- For each byte of a token whether it is code outside of all parentheses, when the token stands there or
not. -/
def Lexeme.topMarks (top : Bool) : Lexeme → List Bool
  | .code s _ => List.replicate (byteCount s) top
  | .lineComment s _ => List.replicate (byteCount ('-' :: '-' :: s)) false ++ [top]
  | .parens ts => false :: (topMarksAll false ts ++ [false])
  | .quoted k ps h => List.replicate (byteCount (Lexeme.quoted k ps h).render) false
  | .bracketed s h => List.replicate (byteCount (Lexeme.bracketed s h).render) false
  | .blockComment s h => List.replicate (byteCount (Lexeme.blockComment s h).render) false

/-- For each byte of tokens whether it is code outside of all parentheses. -/
def topMarksAll (top : Bool) : List Lexeme → List Bool
  | [] => []
  | t :: ts => t.topMarks top ++ topMarksAll top ts

end

/-- Whether a token may stand directly in front of another: code is not followed by more code, and code
that ends in a hyphen not by a line comment. -/
def Lexeme.meets : Lexeme → Lexeme → Bool
  | .code _ _, .code _ _ => false
  | .code s _, .lineComment _ _ => s.getLast? != some '-'
  | _, _ => true

mutual

/-- Whether all tokens inside of a token may stand where they are. -/
def Lexeme.isSpaced : Lexeme → Bool
  | .parens ts => areSpaced ts
  | _ => true

/-- Whether each of the tokens, and those inside of it, may stand where they are. -/
def areSpaced : List Lexeme → Bool
  | [] => true
  | t :: ts => t.isSpaced && ts.head?.all t.meets && areSpaced ts

end

/-! ## Reading with the rest in sight -/

/-- What the mask of a scan says of each byte. -/
def bytesFrom (st : State) (s : List Char) : List Bool := spread s (maskTo none st s)

/-- With `rest` behind it the text `s` takes a scan from `st` to `st'`, and its bytes are masked by `m`. -/
structure Reads (st : State) (s : List Char) (m : List Bool) (st' : State) (rest : List Char) : Prop where
  run_eq : runTo none st (s ++ rest) = runTo none st' rest
  bytes_eq : bytesFrom st (s ++ rest) = m ++ bytesFrom st' rest

/-- The text is read, and none of it is code of top level. -/
def Hides (st : State) (s : List Char) (st' : State) (rest : List Char) : Prop :=
  Reads st s (List.replicate (byteCount s) false) st' rest

variable {st st' st'' : State} {s t rest : List Char} {m n : List Bool} {d : Nat}

theorem reads_nil : Reads st [] [] st rest := ⟨rfl, rfl⟩

theorem Reads.append (hs : Reads st s m st' (t ++ rest)) (ht : Reads st' t n st'' rest) :
    Reads st (s ++ t) (m ++ n) st'' rest := by
  constructor
  · rw [List.append_assoc, hs.run_eq, ht.run_eq]
  · rw [List.append_assoc, hs.bytes_eq, ht.bytes_eq, List.append_assoc]

theorem Hides.append (hs : Hides st s st' (t ++ rest)) (ht : Hides st' t st'' rest) :
    Hides st (s ++ t) st'' rest := by
  rw [Hides, byteCount_append, ← List.replicate_append_replicate]
  exact Reads.append hs ht

theorem reads_char (st : State) (c : Char) (rest : List Char) :
    Reads st [c] (List.replicate c.utf8Size (st.isCode c rest.head? && st.depth == 0))
      (st.step c rest.head?) rest := by
  constructor
  · rw [List.singleton_append, runTo, Option.or_none]
  · rw [List.singleton_append, bytesFrom, maskTo, Option.or_none]
    rfl

theorem hides_char {c : Char} (hstep : st.step c rest.head? = st')
    (hcode : st.isCode c rest.head? = false) : Hides st [c] st' rest := by
  have h := reads_char st c rest
  rw [hstep, hcode, Bool.false_and] at h
  simpa [Hides, byteCount] using h

theorem Hides.cons {c : Char} (hstep : st.step c (s ++ rest).head? = st')
    (hcode : st.isCode c (s ++ rest).head? = false) (hs : Hides st' s st'' rest) :
    Hides st (c :: s) st'' rest :=
  (hides_char hstep hcode).append hs

/-! ## Tokens without code -/

theorem hides_nil : Hides st [] st rest := reads_nil

/-- Characters that leave a scan where it is, and are no code there. -/
theorem hides_all (h : ∀ c ∈ s, ∀ next, st.step c next = st ∧ st.isCode c next = false) :
    Hides st s st rest := by
  induction s with
  | nil => exact hides_nil
  | cons c cs ih =>
    have hc := h c List.mem_cons_self
    exact .cons (hc _).1 (hc _).2 (ih fun d hd => h d (List.mem_cons_of_mem _ hd))

/-- Between marks, inside of `d` parentheses. -/
def between (k : QuoteKind) (d : Nat) : State := { mode := k.mode, depth := d }

theorem isCode_between (k : QuoteKind) (d : Nat) (c : Char) (next : Option Char) :
    (between k d).isCode c next = false := by
  cases k <;> rfl

theorem hides_piece {k : QuoteKind} {p : Piece} (h : p.isIn k = true) :
    Hides (between k d) (p.render k) (between k d) rest := by
  cases p with
  | plain c =>
    refine hides_char ?_ (isCode_between k d _ _)
    simp only [Piece.isIn, Bool.and_eq_true, bne_iff_ne, ne_eq] at h
    cases k <;> simp_all [State.step, State.inQuote, between, QuoteKind.mode, QuoteKind.mark]
  | doubled =>
    have hheld : (between k d).step k.mark (some k.mark) = { between k d with held := true } := by
      cases k with
      | backtick => cases h
      | single => rfl
      | double => rfl
    exact .cons hheld (isCode_between k d _ _) (hides_char rfl rfl)
  | escaped c =>
    have hheld : (between k d).step '\\' (some c) = { between k d with held := true } := by
      cases k <;> rfl
    exact .cons hheld (isCode_between k d _ _) (hides_char rfl rfl)

theorem hides_pieces {k : QuoteKind} {ps : List Piece} (h : ps.all (Piece.isIn k) = true) :
    Hides (between k d) (ps.flatMap (Piece.render k)) (between k d) rest := by
  induction ps with
  | nil => exact hides_nil
  | cons p ps ih =>
    rw [List.all_cons, Bool.and_eq_true] at h
    rw [List.flatMap_cons]
    exact (hides_piece h.1).append (ih h.2)

/-- A mark leads from code into quotes. -/
theorem hides_open (k : QuoteKind) : Hides (codeAt d) [k.mark] (between k d) rest := by
  cases k <;> exact hides_char rfl rfl

/-- A mark leads out of quotes. If the next character is the same mark, the scan takes both for one that
is written twice; that leads to where the next mark as an opening one leads to. -/
theorem hides_close (k : QuoteKind) : Hides (between k d) [k.mark] (codeAt d) rest := by
  by_cases hnext : rest.head? = some k.mark
  · obtain ⟨tail, rfl⟩ : ∃ tail, rest = k.mark :: tail := ⟨rest.tail, by
      cases rest with
      | nil => cases hnext
      | cons c cs => simp_all⟩
    -- behind the next mark the scan is between marks either way
    cases k <;> exact ⟨rfl, rfl⟩
  · refine hides_char ?_ (isCode_between k d _ _)
    cases k <;> simp_all [State.step, State.inQuote, between, QuoteKind.mode, QuoteKind.mark, codeAt]

theorem hides_quoted {k : QuoteKind} {ps : List Piece} (h : ps.all (Piece.isIn k) = true) :
    Hides (codeAt d) (Lexeme.quoted k ps h).render (codeAt d) rest := by
  rw [Lexeme.render]
  exact (hides_open k).append ((hides_pieces h).append (hides_close k))

theorem hides_bracketed (h : ']' ∉ s) :
    Hides (codeAt d) (Lexeme.bracketed s h).render (codeAt d) rest := by
  let inside : State := { mode := .bracket, depth := d }
  have hinside : Hides inside s inside (']' :: rest) := hides_all fun c hc next => by
    have hne : c ≠ ']' := fun he => h (he ▸ hc)
    exact ⟨by simp [State.step, inside, hne], rfl⟩
  have hclose : Hides inside [']'] (codeAt d) rest := hides_char rfl rfl
  rw [Lexeme.render]
  exact .cons rfl rfl (hinside.append hclose)

theorem hides_hyphens : Hides (codeAt d) ['-', '-'] (commentAt d) rest :=
  .cons rfl rfl (hides_char rfl rfl)

theorem hides_comment (h : '\n' ∉ s) : Hides (commentAt d) s (commentAt d) rest :=
  hides_all fun c hc next => by
    have hne : c ≠ '\n' := fun he => h (he ▸ hc)
    exact ⟨step_commentAt hne d next, by simp [isCode_commentAt, hne]⟩

/-- The line feed behind a comment is code. -/
theorem reads_feed : Reads (commentAt d) ['\n'] [d == 0] (codeAt d) rest := by
  have h := reads_char (commentAt d) '\n' rest
  rwa [isCode_commentAt, beq_self_eq_true, Bool.true_and] at h

theorem reads_lineComment (h : '\n' ∉ s) :
    Reads (codeAt d) (Lexeme.lineComment s h).render ((Lexeme.lineComment s h).topMarks (d == 0))
      (codeAt d) rest := by
  have hcomment : Hides (codeAt d) ('-' :: '-' :: s) (commentAt d) (['\n'] ++ rest) :=
    hides_hyphens.append (hides_comment h)
  rw [Lexeme.render, Lexeme.topMarks]
  exact Reads.append hcomment reads_feed

/-- In a block comment inside of `d` parentheses. -/
def blockAt (d : Nat) : State := { mode := .blockComment, depth := d }

theorem hides_block (h : hasPart "*/".toList s = false) :
    Hides (blockAt d) (s ++ ['*', '/']) (codeAt d) rest := by
  induction s with
  | nil => exact .cons rfl rfl (hides_char rfl rfl)
  | cons c cs ih =>
    simp only [hasPart, Bool.or_eq_false_iff] at h
    have hpair : ¬(c = '*' ∧ ((cs ++ ['*', '/']) ++ rest).head? = some '/') := by
      rintro ⟨rfl, hnext⟩
      cases cs with
      | nil => cases hnext
      | cons d ds =>
        obtain rfl : d = '/' := by simpa using hnext
        simp at h
    have hstep : (blockAt d).step c ((cs ++ ['*', '/']) ++ rest).head? = blockAt d := by
      simp only [State.step, blockAt, if_neg hpair]
      rfl
    exact .cons hstep rfl (ih h.2)

theorem hides_blockComment (h : hasPart "*/".toList s = false) :
    Hides (codeAt d) (Lexeme.blockComment s h).render (codeAt d) rest := by
  have hopen : Hides (codeAt d) ['/', '*'] (blockAt d) ((s ++ ['*', '/']) ++ rest) :=
    .cons rfl rfl (hides_char rfl rfl)
  rw [Lexeme.render]
  exact hopen.append (hides_block h)

/-! ## Code -/

/-- Two characters that open a comment together. -/
def OpensComment (c d : Option Char) : Prop :=
  c = some '-' ∧ d = some '-' ∨ c = some '/' ∧ d = some '*'

theorem isCodeText_cons {c : Char} {cs : List Char} (h : isCodeText (c :: cs) = true) :
    c ∉ codeStops ∧ ¬ OpensComment (some c) cs.head? ∧ isCodeText cs = true := by
  simp only [isCodeText, List.all_cons, hasPart, Bool.and_eq_true, Bool.not_eq_true',
    Bool.or_eq_false_iff] at h
  obtain ⟨⟨⟨hc, hcs⟩, hhyphens, hhyphens'⟩, hblock, hblock'⟩ := h
  refine ⟨by simpa using hc, ?_, ?_⟩
  · cases cs with
    | nil => simp [OpensComment]
    | cons d ds =>
      rintro (⟨hc, hd⟩ | ⟨hc, hd⟩) <;> simp_all
  · simp only [isCodeText, hcs, hhyphens', hblock', Bool.not_false, Bool.and_self]

theorem reads_codeChar {c : Char} (hc : c ∉ codeStops) (hpair : ¬ OpensComment (some c) rest.head?) :
    Reads (codeAt d) [c] (List.replicate c.utf8Size (d == 0)) (codeAt d) rest := by
  simp only [codeStops, List.mem_cons, List.not_mem_nil, or_false, not_or] at hc
  simp only [OpensComment, Option.some.injEq, not_or] at hpair
  have h := reads_char (codeAt d) c rest
  have hstep : (codeAt d).step c rest.head? = codeAt d := by
    simp [State.step, codeAt, hc, hpair]
  have hcode : (codeAt d).isCode c rest.head? = true := by
    simpa [State.isCode, codeAt, hc, Decidable.imp_iff_not_or] using hpair
  rw [hstep, hcode, Bool.true_and] at h
  exact h

theorem reads_code (h : isCodeText s = true) (hrest : ¬ OpensComment s.getLast? rest.head?) :
    Reads (codeAt d) s (List.replicate (byteCount s) (d == 0)) (codeAt d) rest := by
  induction s with
  | nil => exact reads_nil
  | cons c cs ih =>
    obtain ⟨hc, hpair, hcs⟩ := isCodeText_cons h
    have hhead : ¬ OpensComment (some c) (cs ++ rest).head? := by
      cases cs with
      | nil => exact hrest
      | cons d ds => exact hpair
    have htail : Reads (codeAt d) cs (List.replicate (byteCount cs) (d == 0)) (codeAt d) rest := by
      cases cs with
      | nil => exact reads_nil
      | cons e es => exact ih hcs hrest
    rw [byteCount, ← List.replicate_append_replicate]
    exact (reads_codeChar hc hhead).append htail

/-! ## Tokens -/

/-- What opens a token other than code makes no comment with the code in front of it, unless it is a
line comment behind a hyphen. -/
theorem not_opensComment_of_meets {t : Lexeme} {h : isCodeText s = true}
    (hmeets : (Lexeme.code s h).meets t = true) (rest : List Char) :
    ¬ OpensComment s.getLast? (t.render ++ rest).head? := by
  cases t with
  | code s' h' => cases hmeets
  | quoted k ps h' => cases k <;> simp [OpensComment, Lexeme.render, QuoteKind.mark]
  | bracketed s' h' => simp [OpensComment, Lexeme.render]
  | lineComment s' h' =>
    have hlast : s.getLast? ≠ some '-' := by simpa [Lexeme.meets] using hmeets
    simp [OpensComment, Lexeme.render, hlast]
  | blockComment s' h' => simp [OpensComment, Lexeme.render]
  | parens ts => simp [OpensComment, Lexeme.render]

/-- What a token is followed by opens no comment with it. -/
def Lexeme.Clears (t : Lexeme) (rest : List Char) : Prop :=
  ∀ s h, t = .code s h → ¬ OpensComment s.getLast? rest.head?

theorem clears_of_areSpaced {t : Lexeme} {ts : List Lexeme} (h : ts.head?.all t.meets = true)
    (hrest : rest.head? ≠ some '-' ∧ rest.head? ≠ some '*') : t.Clears (renderAll ts ++ rest) := by
  rintro s hs rfl
  cases ts with
  | nil => simp [OpensComment, renderAll, hrest]
  | cons t' ts =>
    rw [renderAll, List.append_assoc]
    exact not_opensComment_of_meets (by simpa using h) _

mutual

theorem Lexeme.reads (t : Lexeme) (d : Nat) (rest : List Char) (h : t.isSpaced = true)
    (hrest : t.Clears rest) : Reads (codeAt d) t.render (t.topMarks (d == 0)) (codeAt d) rest := by
  match t with
  | .code s hs => exact reads_code hs (hrest s hs rfl)
  | .quoted k ps hps => exact hides_quoted hps
  | .bracketed s hs => exact hides_bracketed hs
  | .lineComment s hs => exact reads_lineComment hs
  | .blockComment s hs => exact hides_blockComment hs
  | .parens ts =>
    have hopen : Reads (codeAt d) ['('] [false] (codeAt (d + 1)) (renderAll ts ++ [')'] ++ rest) :=
      hides_char rfl rfl
    have hclose : Reads (codeAt (d + 1)) [')'] [false] (codeAt d) rest := hides_char rfl rfl
    -- one parenthesis deeper nothing is at top level, so the inside has the marks of `false`
    have hinside := reads_all ts (d + 1) (')' :: rest) h (by simp)
    exact hopen.append (hinside.append hclose)

theorem reads_all (ts : List Lexeme) (d : Nat) (rest : List Char) (h : areSpaced ts = true)
    (hrest : rest.head? ≠ some '-' ∧ rest.head? ≠ some '*') :
    Reads (codeAt d) (renderAll ts) (topMarksAll (d == 0) ts) (codeAt d) rest := by
  match ts with
  | [] => exact reads_nil
  | t :: ts =>
    simp only [areSpaced, Bool.and_eq_true] at h
    have hfirst := t.reads d (renderAll ts ++ rest) h.1.1 (clears_of_areSpaced h.1.2 hrest)
    exact hfirst.append (reads_all ts d rest h.2 hrest)

end

/-- **Tokens.** The scan of tokens ends in code outside of all parentheses; and the bytes of top-level code
are those of code that stands outside of parentheses, and the line feeds behind line comments there. This
holds of all sequences of tokens in which code is not followed by more code, and code that ends in a hyphen
not by a line comment. -/
theorem scan_renderAll {ts : List Lexeme} (h : areSpaced ts = true) :
    run (renderAll ts) = {} ∧ byteMask (renderAll ts) = topMarksAll true ts := by
  have hreads := reads_all ts 0 [] h (by simp)
  constructor
  · have hrun := hreads.run_eq
    rwa [List.append_nil] at hrun
  · have hbytes := hreads.bytes_eq
    rwa [List.append_nil, show bytesFrom (codeAt 0) [] = [] from rfl, List.append_nil] at hbytes

/-- Tokens that a scan runs into one another. -/
def fusedLexemes : List Lexeme :=
  [.code "a -/".toList (by decide), .blockComment "/*".toList (by decide),
    .quoted .single [.plain 'b'] (by decide), .quoted .single [] (by decide),
    .quoted .single [.doubled, .escaped 'é'] (by decide),
    .parens [.code "c-".toList (by decide), .bracketed "(".toList (by decide), .parens [],
      .lineComment ")".toList (by decide)],
    .quoted .backtick [.escaped '\x60'] (by decide), .lineComment "d".toList (by decide)]

theorem scan_renderAll_fused :
    areSpaced fusedLexemes = true ∧
      renderAll fusedLexemes =
        "a -//*/**/'b''''''\\é'(c-[(]()--)\n)\x60\\\x60\x60--d\n".toList ∧
      run (renderAll fusedLexemes) = {} ∧
      byteMask (renderAll fusedLexemes) = topMarksAll true fusedLexemes :=
  ⟨by decide, by decide +kernel, scan_renderAll (by decide)⟩

end QueryBlend.Sql
