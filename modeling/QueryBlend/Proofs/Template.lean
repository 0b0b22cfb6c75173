import QueryBlend.Settings
import QueryBlend.Proofs.Text.Forms
import Mathlib.Data.List.Chain
/-!
# Texts written with variables

A `Token` is a piece of a text with variables as it is meant: a text without dollars, a variable in braces or
without them, or a dollar that stands for itself. Tokens are written one behind the other, and reading finds
the tokens again as long as no name and no lone dollar runs on into the text behind it (`Token.Apart`).

**Reading.** Each kind of token is read off the front of a text whatever stands behind it, but for what it runs
on into (`pieces_literal`, `pieces_braced`, `pieces_bare`, `pieces_dollar`). What is behind a token starts with
a dollar or with the text of a token, so it never runs on (`stops_textOf`), and tokens give their pieces one
behind the other (`pieces_textOf`).

**Filling.** With a value for each variable the pieces give what they stand for (`fill_of_values`); the first
variable without a value is the error (`fill_of_missing`). Values are put in behind the reading, so a dollar in a
value is a character like others. Both hold of texts that are written with tokens, too (`expand_of_values`,
`expand_of_missing`).

* `expand_tokens`: a text is filled token by token, and it fails exactly if a variable has no value.
-/
namespace QueryBlend.Template
open Text

/-- A piece of a text as it is meant. -/
inductive Token where
  | literal (s : List Char) (hne : s ≠ []) (h : '$' ∉ s)
  | braced (name : List Char) (h : '\x7d' ∉ name)
  | bare (name : List Char) (hne : name ≠ []) (h : name.all isNameChar = true)
  | dollar

namespace Token

def text : Token → List Char
  | literal s _ _ => s
  | braced name _ => '$' :: '\x7b' :: (name ++ ['\x7d'])
  | bare name _ _ => '$' :: name
  | dollar => ['$']

def name? : Token → Option String
  | braced name _ | bare name _ _ => some (String.ofList name)
  | literal _ _ _ | dollar => none

/-- What a token stands for, where variables have values. -/
def filled (value : String → String) : Token → List Char
  | literal s _ _ => s
  | braced name _ | bare name _ _ => (value (String.ofList name)).toList
  | dollar => ['$']

/-- A character that makes a name of a lone dollar. -/
def opensName (c : Char) : Bool := c == '\x7b' || isNameChar c

/-- The first token does not run on into the second: a text behind a name without braces does not go on with
the name, and a text behind a lone dollar does not start one. -/
def Apart : Token → Token → Prop
  | bare _ _ _, literal s _ _ => Stops isNameChar s
  | dollar, literal s _ _ => Stops opensName s
  | _, _ => True

instance : (t u : Token) → Decidable (Apart t u)
  | bare _ _ _, literal s _ _ => inferInstanceAs (Decidable (Stops isNameChar s))
  | dollar, literal s _ _ => inferInstanceAs (Decidable (Stops opensName s))
  | literal _ _ _, _ | braced _ _, _ | bare _ _ _, braced _ _ | bare _ _ _, bare _ _ _
  | bare _ _ _, dollar | dollar, braced _ _ | dollar, bare _ _ _ | dollar, dollar => isTrue trivial

/-- The pieces that a token is read as. -/
def pieces : Token → List Piece
  | literal s _ _ => s.map .char
  | braced name _ | bare name _ _ => [.named name]
  | dollar => [.char '$']

end Token

def textOf (tokens : List Token) : List Char := tokens.flatMap Token.text

def namesOf (tokens : List Token) : List String := tokens.filterMap Token.name?

/-! ## Reading -/

theorem isNameChar_dollar : isNameChar '$' = false := by decide

theorem pieces_literal {s : List Char} (h : '$' ∉ s) (rest : List Char) :
    pieces (s ++ rest) = s.map .char ++ pieces rest := by
  induction s with
  | nil => rfl
  | cons c cs ih =>
    simp only [List.mem_cons, not_or] at h
    rw [List.cons_append, pieces, if_pos (Ne.symm h.1), ih h.2, List.map_cons, List.cons_append]

theorem pieces_braced {name : List Char} (h : '\x7d' ∉ name) (rest : List Char) :
    pieces ('$' :: '\x7b' :: (name ++ '\x7d' :: rest)) = .named name :: pieces rest := by
  have hname : name.all (· != '\x7d') = true := by
    rw [List.all_eq_true]
    intro c hc
    rw [bne_iff_ne]
    intro he
    exact h (he ▸ hc)
  have hstop : Stops (· != '\x7d') ('\x7d' :: rest) := stops_cons (by decide) rest
  have hbrace : ('\x7b' :: (name ++ '\x7d' :: rest)).head? = some '\x7b' := rfl
  rw [pieces, if_neg (by simp), if_pos hbrace, List.tail_cons, takeWhile_stop hname hstop,
    dropWhile_stop hname hstop, List.drop_one, List.tail_cons]

theorem pieces_bare {name rest : List Char} (hne : name ≠ []) (h : name.all isNameChar = true)
    (hrest : Stops isNameChar rest) :
    pieces ('$' :: (name ++ rest)) = .named name :: pieces rest := by
  have hbrace : (name ++ rest).head? ≠ some '\x7b' := by
    obtain ⟨c, cs, rfl⟩ := List.exists_cons_of_ne_nil hne
    intro he
    cases he
    exact absurd (List.all_eq_true.mp h '\x7b' List.mem_cons_self) (by decide)
  rw [pieces, if_neg (by simp), if_neg hbrace, takeWhile_stop h hrest, dropWhile_stop h hrest,
    if_neg (by simpa using hne)]

theorem pieces_dollar {rest : List Char} (hrest : Stops Token.opensName rest) :
    pieces ('$' :: rest) = .char '$' :: pieces rest := by
  have hbrace : rest.head? ≠ some '\x7b' := by
    intro he
    exact absurd (hrest _ he) (by decide)
  have hname : Stops isNameChar rest := by
    intro c hc
    have := hrest c hc
    simp only [Token.opensName, Bool.or_eq_false_iff] at this
    exact this.2
  have hnone : rest.takeWhile isNameChar = [] := takeWhile_stop (s := []) rfl hname
  simp [pieces, hbrace, hnone]

/-- What is written behind a token does not start with a character of a class that neither a dollar nor the next
token's own text starts with. -/
theorem stops_textOf {p : Char → Bool} (hdollar : p '$' = false) {tokens : List Token}
    (h : ∀ s hne hs, tokens.head? = some (.literal s hne hs) → Stops p s) : Stops p (textOf tokens) := by
  cases tokens with
  | nil => exact stops_nil
  | cons t ts =>
    rw [textOf, List.flatMap_cons]
    cases t with
    | literal s hne hs =>
      obtain ⟨c, cs, rfl⟩ := List.exists_cons_of_ne_nil hne
      exact stops_cons (h _ hne hs rfl c rfl) _
    | braced name _ => exact stops_cons hdollar _
    | bare name _ _ => exact stops_cons hdollar _
    | dollar => exact stops_cons hdollar _

/-- Tokens that stand apart are read again. -/
theorem pieces_textOf {tokens : List Token} (h : tokens.IsChain Token.Apart) :
    pieces (textOf tokens) = tokens.flatMap Token.pieces := by
  induction tokens with
  | nil => simp [textOf, pieces]
  | cons t ts ih =>
    have hts := ih h.tail
    rw [List.isChain_cons] at h
    rw [textOf, List.flatMap_cons, List.flatMap_cons, ← hts]
    cases t with
    | literal s _ hs => exact pieces_literal hs _
    | braced name hname =>
      have := pieces_braced hname (textOf ts)
      simpa [Token.text, Token.pieces, textOf] using this
    | bare name hne hname =>
      have hrest : Stops isNameChar (textOf ts) :=
        stops_textOf isNameChar_dollar fun s hne hs hhead => h.1 _ hhead
      exact pieces_bare hne hname hrest
    | dollar =>
      have hrest : Stops Token.opensName (textOf ts) :=
        stops_textOf (by decide) fun s hne hs hhead => h.1 _ hhead
      exact pieces_dollar hrest

/-! ## Filling -/

def namesIn (ps : List Piece) : List String :=
  ps.filterMap fun
    | .named name => some (String.ofList name)
    | .char _ => none

/-- What a piece stands for, where variables have values. -/
def Piece.filled (value : String → String) : Piece → List Char
  | .char c => [c]
  | .named name => (value (String.ofList name)).toList

section

variable {lookup : String → Option String} {ps : List Piece}

theorem fill_of_values {value : String → String}
    (h : ∀ name ∈ namesIn ps, lookup name = some (value name)) :
    fill lookup ps = .ok (ps.flatMap (Piece.filled value)) := by
  induction ps with
  | nil => rfl
  | cons p ps ih =>
    cases p with
    | char c =>
      have hrest := ih h
      simp [fill, hrest, Piece.filled, Except.map]
    | named name =>
      have hname := h (String.ofList name) List.mem_cons_self
      have hrest := ih fun n hn => h n (List.mem_cons_of_mem _ hn)
      simp [fill, hname, hrest, Piece.filled, Except.map]

/-- The first variable without a value is the error, whatever stands behind it. -/
theorem fill_of_missing {before after : List String} {name : String}
    (hps : namesIn ps = before ++ name :: after) (hbefore : ∀ n ∈ before, lookup n ≠ none)
    (hname : lookup name = none) : fill lookup ps = .error name := by
  induction ps generalizing before with
  | nil =>
    cases before <;> cases hps
  | cons p ps ih =>
    cases p with
    | char c =>
      have hrest := ih hps hbefore
      simp [fill, hrest, Except.map]
    | named first =>
      cases before with
      | nil =>
        obtain ⟨hfirst, -⟩ := List.cons.inj hps
        rw [fill, hfirst, hname]
      | cons n before =>
        obtain ⟨hfirst, hrest⟩ := List.cons.inj hps
        obtain ⟨v, hv⟩ := Option.ne_none_iff_exists'.mp (hbefore n List.mem_cons_self)
        have hfill := ih hrest fun m hm => hbefore m (List.mem_cons_of_mem _ hm)
        rw [fill, hfirst, hv]
        simp [hfill, Except.map]

/-- Where a variable is missing, one is the first. -/
theorem exists_first_missing {names : List String}
    (h : ∃ name ∈ names, lookup name = none) : ∃ before name after,
      names = before ++ name :: after ∧ (∀ n ∈ before, lookup n ≠ none) ∧ lookup name = none := by
  obtain ⟨name, hname, hnone⟩ := h
  have hfound : (names.find? fun n => (lookup n).isNone) ≠ none := by
    rw [Ne, List.find?_eq_none]
    intro hall
    exact hall name hname (by rw [hnone]; rfl)
  obtain ⟨first, hfirst⟩ := Option.ne_none_iff_exists'.mp hfound
  obtain ⟨hmissing, before, after, hcut, hbefore⟩ := List.find?_eq_some_iff_append.mp hfirst
  refine ⟨before, first, after, hcut, fun n hn he => ?_, Option.isNone_iff_eq_none.mp hmissing⟩
  have hsome := hbefore n hn
  rw [he] at hsome
  exact absurd hsome (by decide)

end

theorem namesIn_pieces (t : Token) : namesIn t.pieces = t.name?.toList := by
  cases t with
  | literal s hne h => simp [namesIn, Token.pieces, Token.name?]
  | braced name h => rfl
  | bare name hne h => rfl
  | dollar => rfl

theorem filled_pieces (value : String → String) (t : Token) :
    t.pieces.flatMap (Piece.filled value) = t.filled value := by
  cases t with
  | literal s hne h => simp [Token.pieces, Token.filled, Piece.filled, List.flatMap_map]
  | braced name h => simp [Token.pieces, Token.filled, Piece.filled]
  | bare name hne h => simp [Token.pieces, Token.filled, Piece.filled]
  | dollar => rfl

theorem namesIn_textOf {tokens : List Token} (h : tokens.IsChain Token.Apart) :
    namesIn (pieces (textOf tokens)) = namesOf tokens := by
  rw [pieces_textOf h, namesIn, List.filterMap_flatMap, namesOf, List.filterMap_eq_flatMap_toList]
  exact List.flatMap_congr fun t _ => namesIn_pieces t

/-! ## Token by token -/

theorem look_map {β : Type} (f : String → β) {name : String} {names : List String} (h : name ∈ names) :
    Dict.look name (names.map fun n => (n, f n)) = some (f name) := by
  induction names with
  | nil => cases h
  | cons n names ih =>
    rw [List.map_cons, Dict.look]
    by_cases hn : n = name
    · rw [if_pos hn, hn]
    · rw [if_neg hn, ih ((List.mem_cons.mp h).resolve_left (Ne.symm hn))]

/-- To ask for the variables of a text before it is filled makes no difference. -/
theorem expand_eq (machine : Machine Id) (s : String) :
    Settings.expand machine s =
      (expand machine.environment? s).mapError SettingsProblem.missingVariable := by
  have hasked : (namesIn (pieces s.toList)).mapM (m := Id)
      (fun name => do return (name, ← machine.environment? name)) =
      (namesIn (pieces s.toList)).map fun name => (name, machine.environment? name) :=
    List.idRun_mapM
  have hfill : fill (fun name => (Dict.look name
      ((namesIn (pieces s.toList)).map fun n => (n, machine.environment? n))).join) (pieces s.toList) =
      fill machine.environment? (pieces s.toList) := by
    refine fill_congr fun name hname => ?_
    have hmem : String.ofList name ∈ namesIn (pieces s.toList) :=
      List.mem_filterMap.mpr ⟨_, hname, rfl⟩
    rw [look_map _ hmem, Option.join_some]
  rw [expand, ← hfill, ← hasked]
  rfl

section

variable (machine : Machine Id) {tokens : List Token}

theorem expand_of_values (h : tokens.IsChain Token.Apart) (value : String → String)
    (hvalue : ∀ name ∈ namesOf tokens, machine.environment? name = some (value name)) :
    Settings.expand machine (String.ofList (textOf tokens)) =
      .ok (String.ofList (tokens.flatMap (Token.filled value))) := by
  have hfill := fill_of_values (namesIn_textOf h ▸ hvalue)
  rw [pieces_textOf h, List.flatMap_assoc] at hfill
  simp only [filled_pieces] at hfill
  rw [expand_eq, expand, String.toList_ofList, pieces_textOf h, hfill]
  rfl

theorem expand_of_missing (h : tokens.IsChain Token.Apart) {before after : List String} {name : String}
    (hcut : namesOf tokens = before ++ name :: after) (hbefore : ∀ n ∈ before, machine.environment? n ≠ none)
    (hname : machine.environment? name = none) :
    Settings.expand machine (String.ofList (textOf tokens)) = .error (.missingVariable name) := by
  have hfill := fill_of_missing ((namesIn_textOf h).trans hcut) hbefore hname
  rw [expand_eq, expand, String.toList_ofList, hfill]
  rfl

end

/-- **Variables, token by token.** A text that is written with tokens becomes what they stand for, the values of
variables as they are; it fails exactly if a variable has no value, and the error names the first such variable. -/
theorem expand_tokens (machine : Machine Id) {tokens : List Token} (h : tokens.IsChain Token.Apart) :
    (∀ value : String → String,
      (∀ name ∈ namesOf tokens, machine.environment? name = some (value name)) →
      Settings.expand machine (String.ofList (textOf tokens)) =
        .ok (String.ofList (tokens.flatMap (Token.filled value)))) ∧
    (∀ before name after, namesOf tokens = before ++ name :: after →
      (∀ n ∈ before, machine.environment? n ≠ none) → machine.environment? name = none →
      Settings.expand machine (String.ofList (textOf tokens)) = .error (.missingVariable name)) ∧
    ((∃ problem, Settings.expand machine (String.ofList (textOf tokens)) = .error problem) ↔
      ∃ name ∈ namesOf tokens, machine.environment? name = none) := by
  refine ⟨expand_of_values machine h, fun before name after => expand_of_missing machine h, ?_⟩
  constructor
  · rintro ⟨problem, hproblem⟩
    by_contra hall
    push Not at hall
    have hok := expand_of_values machine h (fun name => (machine.environment? name).getD "") <| by
      intro name hname
      obtain ⟨v, hv⟩ := Option.ne_none_iff_exists'.mp (hall name hname)
      rw [hv, Option.getD_some]
    rw [hok] at hproblem
    cases hproblem
  · intro hmissing
    obtain ⟨before, name, after, hcut, hbefore, hnone⟩ := exists_first_missing hmissing
    exact ⟨_, expand_of_missing machine h hcut hbefore hnone⟩

/-- Two dollars, a name in front of a brace, and a dollar at the end. -/
def dollars : List Token :=
  [.dollar, .bare "a".toList (by decide) (by decide), .braced "b c".toList (by decide),
    .literal "/d".toList (by decide) (by decide), .dollar]

/-- A machine with variables, one of which has dollars in its value. -/
def dollarMachine : Machine Id :=
  Disk.machine {} (Dict.ofList [("a", "$x$\x7by\x7d"), ("b c", "7")]) none

theorem expand_tokens_dollars :
    dollars.IsChain Token.Apart ∧ textOf dollars = "$$a$\x7bb c\x7d/d$".toList ∧
    Settings.expand dollarMachine (String.ofList (textOf dollars)) = .ok "$$x$\x7by\x7d7/d$" ∧
    Settings.expand (Disk.machine {} {} none) (String.ofList (textOf dollars)) =
      .error (.missingVariable "a") := by
  have hapart : dollars.IsChain Token.Apart := by decide
  obtain ⟨hvalues, -, -⟩ := expand_tokens dollarMachine hapart
  obtain ⟨-, hmissing, -⟩ := expand_tokens (Disk.machine {} {} none) hapart
  have hnames : namesOf dollars = ["a", "b c"] := by decide
  have hfilled := hvalues (fun name => if name = "a" then "$x$\x7by\x7d" else "7") <| by
    intro name hname
    rw [hnames] at hname
    rcases List.mem_pair.mp hname with rfl | rfl <;> rfl
  exact ⟨hapart, by decide, hfilled, hmissing [] "a" ["b c"] hnames (fun _ hn => nomatch hn) rfl⟩

end QueryBlend.Template
