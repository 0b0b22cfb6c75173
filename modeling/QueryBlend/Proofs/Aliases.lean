import QueryBlend.CommandLine.Run
import QueryBlend.Proofs.JoinTree
/-!
# Sanitized aliases

Any name can be made into one of the characters of aliases. What this does is settled in one step, and a blend
that is valid has nothing to settle.

**Names.** A character becomes one or two characters of aliases (`isAliasChar_of_mem_aliasChars`), and those stay
what they are (`aliasChars_of_isAliasChar`). What is left to ask of such a name is its first character
(`isAlias_of_all_iff`).

**Blends.** In a valid blend a name that is given is empty, and then the id counts, or it is an alias
(`Query.sanitize_of_isAlias`).

**Command lines.** The switch changes a blend between reading and judging it, and nothing else
(`perform_sanitizing`).

* `sanitize_settled`: the three together.
-/
namespace QueryBlend
open Text

/-! ## Names -/

theorem isAliasChar_iff (c : Char) :
    isAliasChar c = true ↔ ('a' ≤ c ∧ c ≤ 'z') ∨ ('0' ≤ c ∧ c ≤ '9') ∨ c = '_' := by
  simp [isAliasChar, isSmallLetter, isAsciiDigit, or_assoc]

theorem aliasChars_of_isAliasChar {c : Char} (h : isAliasChar c = true) : aliasChars c = [c] := if_pos h

theorem isAliasChar_lowerAscii {c : Char} (h : 'A' ≤ c ∧ c ≤ 'Z') : isAliasChar (lowerAscii c) = true := by
  have htable : ∀ n < 26, isAliasChar (lowerAscii (Char.ofNat (65 + n))) = true := by decide
  have hlow : 65 ≤ c.toNat := h.1
  have hhigh : c.toNat ≤ 90 := h.2
  have hc := htable (c.toNat - 65) (by omega)
  rwa [Nat.add_sub_cancel' hlow, Char.ofNat_toNat] at hc

/-- Whatever a character becomes, it is made of the characters of aliases. -/
theorem isAliasChar_of_mem_aliasChars {c d : Char} (h : d ∈ aliasChars c) : isAliasChar d = true := by
  unfold aliasChars at h
  split at h
  · next hc =>
    rwa [List.mem_singleton.mp h]
  split at h
  · next hcapital =>
    rw [List.mem_singleton.mp h]
    exact isAliasChar_lowerAscii hcapital
  split at h
  · rw [List.mem_singleton.mp h]
    decide
  split at h
  · rcases List.mem_pair.mp h with rfl | rfl <;> decide
  · rw [List.mem_singleton.mp h]
    decide

theorem isAliasChar_of_mem_toAlias {raw : String} {c : Char} (h : c ∈ (toAlias raw).toList) :
    isAliasChar c = true := by
  rw [toAlias, String.toList_ofList] at h
  obtain ⟨d, -, hc⟩ := List.mem_flatMap.mp h
  exact isAliasChar_of_mem_aliasChars hc

/-- A name of the characters of aliases stays as it is. -/
theorem toAlias_of_all {name : String} (h : ∀ c ∈ name.toList, isAliasChar c = true) : toAlias name = name := by
  have hsame : name.toList.flatMap aliasChars = name.toList.flatMap fun c => [c] :=
    List.flatMap_congr fun c hc => aliasChars_of_isAliasChar (h c hc)
  rw [toAlias, hsame, List.flatMap_singleton', String.ofList_toList]

/-- Of a name of the characters of aliases only the first is asked. -/
theorem isAlias_of_all_iff {name : String} (h : ∀ c ∈ name.toList, isAliasChar c = true) :
    isAlias name = true ↔ ∃ c, name.toList.head? = some c ∧ 'a' ≤ c ∧ c ≤ 'z' := by
  rw [isAlias_iff]
  constructor
  · intro halias
    obtain ⟨c, cs, hname, hc, -⟩ := halias
    refine ⟨c, by rw [hname]; rfl, ?_⟩
    simpa [isSmallLetter] using hc
  · intro hfirst
    obtain ⟨c, hhead, hc⟩ := hfirst
    obtain ⟨cs, hname⟩ := List.head?_eq_some_iff.mp hhead
    refine ⟨c, cs, hname, by simpa [isSmallLetter] using hc, fun d hd => h d ?_⟩
    rw [hname]
    exact List.mem_cons_of_mem _ hd

/-! ## Blends -/

/-- A query under an alias, its id or a name that it is given, stays as it is. -/
theorem Query.sanitize_of_isAlias {q : Query} (h : isAlias q.name = true) : q.sanitize = q := by
  have hgiven : q.givenName.map toAlias = q.givenName := by
    cases hq : q.givenName with
    | none => rfl
    | some name =>
      rw [Option.map_some, toAlias_of_all]
      rw [Query.name, hq] at h
      simp only [] at h
      split at h
      · next hempty =>
        rw [String.isEmpty_iff.mp hempty]
        intro c hc
        cases hc
      · obtain ⟨first, rest, hname, hfirst, hrest⟩ := (isAlias_iff name).mp h
        intro c hc
        rw [hname] at hc
        rcases List.mem_cons.mp hc with rfl | hc
        · simp [isAliasChar, hfirst]
        · exact hrest c hc
  rw [Query.sanitize, hgiven]

theorem Blend.sanitize_of_isValid {b : Blend} (h : b.isValid = true) : b.sanitize = b := by
  have hnames := (isJoinTree_of_isValid h).names_alias
  have hqueries : b.queries.map Query.sanitize = b.queries.map id :=
    List.map_congr_left fun q hq => Query.sanitize_of_isAlias ((isAlias_iff_isAliasText _).mpr (hnames q hq))
  rw [Blend.sanitize, hqueries, List.map_id]

/-! ## Command lines -/

namespace CommandLine

def Action.file : Action → String
  | .compile file _ | .segments file | .derivedTables file | .validate file _ => file

/-- The action with the switch for sanitized aliases set or not, if it has this switch. -/
def Action.sanitizing (wanted : Bool) : Action → Action
  | .compile file o => .compile file { o with sanitizeAliases := wanted }
  | .validate file _ => .validate file wanted
  | action => action

/-- A file defines a valid blend. -/
def DefinesValid (machine : Machine Id) (file : String) : Prop :=
  ∃ text b, machine.readText file = .ok text ∧ Blend.read text.toList = .ok b ∧ b.isValid = true

theorem parseBlend_of_isValid {text : String} {b : Blend} (hread : Blend.read text.toList = .ok b)
    (hvalid : b.isValid = true) (file : String) (wanted : Bool) : parseBlend file wanted text = .ok b := by
  simp only [parseBlend, hread, Blend.sanitize_of_isValid hvalid, ite_self]

theorem textOfFile_of_ok {machine : Machine Id} {file text : String} (h : machine.readText file = .ok text) :
    textOfFile machine file = pure text := by
  unfold textOfFile
  rw [h]
  rfl

/-- On a valid blend an action does the same with the switch and without it. -/
theorem perform_sanitizing (format : Sql.Formatter) {machine : Machine Id} {action : Action}
    (h : DefinesValid machine action.file) :
    ((action.sanitizing true).perform format machine).run =
      ((action.sanitizing false).perform format machine).run := by
  obtain ⟨text, b, htext, hread, hvalid⟩ := h
  have hparse (wanted : Bool) := parseBlend_of_isValid hread hvalid action.file wanted
  cases action with
  | compile file o =>
    show (compileFile format machine file _).run = (compileFile format machine file _).run
    unfold compileFile
    rw [Action.file] at htext hparse
    rw [textOfFile_of_ok htext]
    simp only [pure_bind, hparse]
    rfl
  | validate file _ =>
    rw [Action.file] at htext hparse
    simp only [Action.sanitizing, Action.perform, textOfFile_of_ok htext, pure_bind, reportVerdict, hparse]
  | segments file => rfl
  | derivedTables file => rfl

/-- Two command lines that ask for the same, but for the switch, have the same outcome on a valid blend. -/
theorem run_sanitizing (format : Sql.Formatter) {machine : Machine Id} {action : Action}
    {args args' : List String} (hargs : parse args = .ok (action.sanitizing false))
    (hargs' : parse args' = .ok (action.sanitizing true)) (h : DefinesValid machine action.file) :
    run format machine args' = run format machine args := by
  unfold run
  rw [hargs, hargs']
  simp only []
  rw [perform_sanitizing format h]

/-- **Sanitized aliases.** A name is settled in one step: what it is made into has only the characters of aliases,
stays as it is, and is an alias if its first character is a small letter. A valid blend stays as it is, and so
does the outcome of every command line on it, whatever lays out the statement. -/
theorem sanitize_settled :
    (∀ raw : String,
      (∀ c ∈ (toAlias raw).toList, ('a' ≤ c ∧ c ≤ 'z') ∨ ('0' ≤ c ∧ c ≤ '9') ∨ c = '_') ∧
      toAlias (toAlias raw) = toAlias raw ∧
      (isAlias (toAlias raw) = true ↔ ∃ c, (toAlias raw).toList.head? = some c ∧ 'a' ≤ c ∧ c ≤ 'z')) ∧
    (∀ b : Blend, b.isValid = true → b.sanitize = b) ∧
    (∀ (format : Sql.Formatter) (machine : Machine Id) (action : Action) (args args' : List String),
      parse args = .ok (action.sanitizing false) → parse args' = .ok (action.sanitizing true) →
      DefinesValid machine action.file → run format machine args' = run format machine args) := by
  refine ⟨fun raw => ?_, fun b => Blend.sanitize_of_isValid,
    fun format machine action args args' => run_sanitizing format⟩
  have hall : ∀ c ∈ (toAlias raw).toList, isAliasChar c = true := fun c => isAliasChar_of_mem_toAlias
  exact ⟨fun c hc => (isAliasChar_iff c).mp (hall c hc), toAlias_of_all hall, isAlias_of_all_iff hall⟩

/-- A machine with the definition of a blend of one query, whose id is no alias, in its only file. -/
def namedMachine : Machine Id where
  readText path :=
    if path = "b.json" then .ok "\x7b\"queries\": [\x7b\"id\": \"Q 1\", \"alias\": \"orders_1\"\x7d]\x7d"
    else .error .notFound
  isThere path := path == "b.json"
  environment? _ := none
  configDirectory? := none

def namedBlend : Blend := { queries := [{ id := "Q 1", givenName := some "orders_1" }] }

theorem isValid_namedBlend : namedBlend.isValid = true := by
  refine List.isEmpty_iff.mpr (Blend.findings_of_isJoinTree ?_)
  exact {
    queries_ne_nil := List.cons_ne_nil _ _
    ids_nodup := by decide
    names_alias := fun q hq => (isAlias_iff_isAliasText q.name).mp (by revert q; decide)
    names_nodup := by decide
    keys_iff := fun id => iff_of_false (List.not_mem_nil) (List.not_mem_nil)
    target_eq := by decide
    cross_bare := by decide
    conditions_ne_nil := by decide
    conditions := by decide }

/-- A name of foreign letters that become small letters of ASCII, and a blend that is compiled both ways, to the
statement as it is composed. -/
theorem sanitize_settled_named :
    toAlias "\u0130\u212a Items" = "i_k_items" ∧ isAlias (toAlias "\u0130\u212a Items") = true ∧
    namedBlend.isValid = true ∧ namedBlend.sanitize = namedBlend ∧
    DefinesValid namedMachine "b.json" ∧
    run Sql.asWritten namedMachine ["compile", "--sanitize-aliases", "--no-pretty", "b.json", "-d", "snowflake"] =
      run Sql.asWritten namedMachine ["compile", "--no-pretty", "b.json", "-d", "snowflake"] := by
  obtain ⟨hnames, hblends, hruns⟩ := sanitize_settled
  have halias := (hnames "\u0130\u212a Items").2.2.mpr ⟨'i', by decide +kernel, by decide⟩
  have hdefines : DefinesValid namedMachine "b.json" :=
    ⟨_, namedBlend, rfl, by decide +kernel, isValid_namedBlend⟩
  exact ⟨by decide +kernel, halias, isValid_namedBlend, hblends namedBlend isValid_namedBlend, hdefines,
    hruns Sql.asWritten namedMachine (.compile "b.json" { dialect := some "snowflake", noPretty := true }) _ _
      (by decide +kernel) (by decide +kernel) hdefines⟩

end CommandLine
end QueryBlend
