import QueryBlend.SqlSource
import Mathlib.Data.List.Forall2
/-!
# Reads inside of directories

A directory of queries is asked for whatever text stands in a definition as an id, and then for whatever text
its slug stands for. None of them leads out of the directory: what is opened is right below its root.

**Recorded machines.** A machine that records its accesses answers as before. `Recorded` says of a program that
it does the same on both and what it adds to the record, and is put together along the program (`Recorded.bind`,
`Recorded.mapM`). The machine has a state, which may change with each access in whatever way.

**Places.** The file for an id is right below the place of the root (`ofPath_joinPath`, `ofPath_file`).

**Queries.** `Reads` says what is opened for an id, and `Fetches` for an id and its slug (`recorded_readSql`,
`recorded_fetch`).

* `fetchEach_inside`: all queries together.
-/
namespace QueryBlend
open Text

/-! ## Recorded machines -/

/-- An access to the files of a machine, with its answer. -/
inductive Access where
  | read (path : String) (answer : Except ReadFailure String)
  | look (path : String) (answer : Bool)

def Access.path : Access → String
  | read path _ | look path _ => path

/-- A machine that does what another one does and records each access to its files. -/
def Machine.recorded {m : Type → Type} [Monad m] (machine : Machine m) :
    Machine (StateT (List Access) m) where
  readText path := do
    let answer ← machine.readText path
    modify (· ++ [.read path answer])
    return answer
  isThere path := do
    let answer ← machine.isThere path
    modify (· ++ [.look path answer])
    return answer
  environment? name := machine.environment? name
  configDirectory? := machine.configDirectory?

section

variable {σ α β : Type} {machine : Machine (StateM σ)}

/-- A program with a record does what the program without it does, whatever state the machine is in. The
accesses that it adds to the record and what it gives are in a relation. -/
def Recorded (p : α → List Access → Prop) (x : StateT (List Access) (StateM σ) α) (y : StateM σ α) : Prop :=
  ∀ before here, ∃ added,
    (x.run before).run here = (((y.run here).1, before ++ added), (y.run here).2) ∧ p (y.run here).1 added

variable {p : α → List Access → Prop} {q : β → List Access → Prop}
  {x : StateT (List Access) (StateM σ) α} {y : StateM σ α}
  {f : α → StateT (List Access) (StateM σ) β} {g : α → StateM σ β}

theorem Recorded.pure {a : α} (h : p a []) : Recorded p (pure a) (pure a : StateM σ α) :=
  fun before _ => ⟨[], by rw [List.append_nil]; rfl, h⟩

theorem Recorded.bind (hx : Recorded p x y)
    (hf : ∀ a added, p a added → Recorded (fun b more => q b (added ++ more)) (f a) (g a)) :
    Recorded q (x >>= f) (y >>= g) := by
  intro before here
  obtain ⟨added, hrun, ha⟩ := hx before here
  obtain ⟨more, hmore, hb⟩ := hf _ _ ha (before ++ added) (y.run here).2
  refine ⟨added ++ more, ?_, hb⟩
  rw [StateT.run_bind, StateT.run_bind, hrun, ← List.append_assoc]
  exact hmore

theorem Recorded.imp {p' : α → List Access → Prop} (hx : Recorded p x y)
    (h : ∀ a added, p a added → p' a added) : Recorded p' x y := by
  intro before here
  obtain ⟨added, hrun, ha⟩ := hx before here
  exact ⟨added, hrun, h _ _ ha⟩

/-- What a program records for each member of a list, in the order of the list. -/
theorem Recorded.mapM {ι : Type} {p : ι → α → List Access → Prop}
    {f : ι → StateT (List Access) (StateM σ) α} {g : ι → StateM σ α}
    (h : ∀ i, Recorded (p i) (f i) (g i)) (l : List ι) :
    Recorded (fun results accesses => ∃ parts : List (α × List Access),
        results = parts.map Prod.fst ∧ accesses = (parts.map Prod.snd).flatten ∧
        List.Forall₂ (fun i part => p i part.1 part.2) l parts) (l.mapM f) (l.mapM g) := by
  induction l with
  | nil =>
    rw [List.mapM_nil, List.mapM_nil]
    exact .pure ⟨[], rfl, rfl, .nil⟩
  | cons i l ih =>
    rw [List.mapM_cons, List.mapM_cons]
    refine (h i).bind fun a added ha => ih.bind fun results accesses hparts => ?_
    obtain ⟨parts, hresults, haccesses, hall⟩ := hparts
    refine .pure ⟨(a, added) :: parts, ?_, ?_, .cons ha hall⟩
    · rw [hresults, List.map_cons]
    · rw [haccesses, List.map_cons, List.flatten_cons, List.append_nil]

theorem recorded_readText (path : String) :
    Recorded (fun answer added => added = [.read path answer]) (machine.recorded.readText path)
      (machine.readText path) :=
  fun _ _ => ⟨_, rfl, rfl⟩

end

/-! ## Places -/

/-- The place that a path leads to. -/
def Location.ofPath (path : String) : Location := (path.toList.splitOn '/').foldl .step (.start path)

/-- A name below a path is taken from the place of the path. -/
theorem ofPath_joinPath (path : String) {name : String} (hslash : '/' ∉ name.toList) :
    Location.ofPath (joinPath path name) = (Location.ofPath path).step name.toList := by
  have hname : name.toList.splitOn '/' = [name.toList] := List.splitOn_eq_singleton hslash
  by_cases hempty : path = ""
  · have hstart : Location.start name = [] := if_neg fun h => hslash (List.mem_of_head? h)
    rw [hempty, joinPath_empty, Location.ofPath, hname, hstart]
    rfl
  -- from a path that starts somewhere a longer one starts there, too
  have hstart (below : String) : Location.start (path ++ below) = Location.start path := by
    rw [Location.start, Location.start, String.toList_append, List.head?_append_of_ne_nil]
    rwa [Ne, String.toList_eq_nil_iff]
  rw [joinPath]
  split
  · next h =>
    have hlast : path.toList.getLast? = some '/' := by simpa [hempty] using h
    obtain ⟨front, hfront⟩ := List.getLast?_eq_some_iff.mp hlast
    rw [Location.ofPath, hstart, Location.ofPath, String.toList_append, hfront, List.append_assoc,
      List.singleton_append, List.splitOn_append_cons_self, List.splitOn_append_cons_self, hname,
      List.splitOn_nil, List.foldl_append, List.foldl_append]
    simp [Location.step]
  · rw [Location.ofPath, String.append_assoc, hstart, Location.ofPath, String.toList_append,
      String.toList_append]
    have hslashes : ("/" : String).toList ++ name.toList = '/' :: name.toList := rfl
    rw [hslashes, List.splitOn_append_cons_self, hname, List.foldl_append]
    rfl

/-- An id that names a file: ASCII letters, digits, underscores and hyphens, at least one. -/
def IsFileName (id : String) : Prop :=
  id.toList ≠ [] ∧ ∀ c ∈ id.toList,
    ('a' ≤ c ∧ c ≤ 'z') ∨ ('A' ≤ c ∧ c ≤ 'Z') ∨ ('0' ≤ c ∧ c ≤ '9') ∨ c = '_' ∨ c = '-'

theorem isFileId_iff_isFileName (id : String) : isFileId id = true ↔ IsFileName id := by
  rw [isFileId_iff, IsFileName]
  simp [isFileIdChar, isAsciiAlphanumeric, isAsciiLetter, isAsciiDigit, or_assoc]

namespace QueryDirectory

/-- The file for an id. -/
def file (s : QueryDirectory) (id : String) : String := joinPath s.root (id ++ ".sql")

theorem ofPath_file (s : QueryDirectory) {id : String} (h : IsFileName id) :
    Location.ofPath (s.file id) = Location.ofPath s.root ++ [(id ++ ".sql").toList] := by
  have hslash : '/' ∉ (id ++ ".sql").toList := by
    rw [String.toList_append, List.mem_append]
    rintro (hid | hend)
    · exact absurd (h.2 '/' hid) (by decide)
    · exact absurd hend (by decide)
  -- none of the names with a meaning of their own is that long
  have hlength : 4 < (id ++ ".sql").toList.length := by
    have := List.length_pos_of_ne_nil h.1
    rw [String.toList_append, List.length_append]
    have : ".sql".toList.length = 4 := rfl
    omega
  rw [file, ofPath_joinPath _ hslash, Location.step, if_neg, if_neg]
  · intro hup
    rw [hup] at hlength
    exact absurd hlength (by decide)
  · rintro (hnone | hdot)
    · rw [hnone] at hlength
      exact absurd hlength (by decide)
    · rw [hdot] at hlength
      exact absurd hlength (by decide)

/-! ## Queries -/

/-- What asking for an id gives and opens. -/
inductive Reads (s : QueryDirectory) (id : String) : Option String → List Access → Prop
  | outside (h : ¬ IsFileName id) : Reads s id none []
  | found (h : IsFileName id) (sql : String) : Reads s id (some sql) [.read (s.file id) (.ok sql)]
  | failed (h : IsFileName id) (failure : ReadFailure) :
      Reads s id none [.read (s.file id) (.error failure)]

/-- What fetching the query of a source gives and opens. -/
inductive Fetches (s : QueryDirectory) (source : String) : String → List Access → Prop
  | direct {sql : String} {accesses : List Access} (h : s.Reads source (some sql) accesses) :
      Fetches s source sql accesses
  | noSlug {accesses : List Access} (h : s.Reads source none accesses) (hslug : s.slugs.get? source = none) :
      Fetches s source (missingSql source) accesses
  | slug {target sql : String} {accesses more : List Access} (h : s.Reads source none accesses)
      (hslug : s.slugs.get? source = some target) (htarget : s.Reads target (some sql) more) :
      Fetches s source sql (accesses ++ more)
  | slugFailed {target : String} {accesses more : List Access} (h : s.Reads source none accesses)
      (hslug : s.slugs.get? source = some target) (htarget : s.Reads target none more) :
      Fetches s source (missingSql source) (accesses ++ more)

variable {s : QueryDirectory} {id source text : String} {accesses : List Access}

theorem Reads.inside {answer : Option String} (h : s.Reads id answer accesses) {a : Access}
    (ha : a ∈ accesses) : IsFileName id ∧ a.path = s.file id := by
  cases h with
  | outside h => cases ha
  | found h sql =>
    rw [List.mem_singleton.mp ha]
    exact ⟨h, rfl⟩
  | failed h failure =>
    rw [List.mem_singleton.mp ha]
    exact ⟨h, rfl⟩

theorem Reads.of_outside {answer : Option String} (h : s.Reads id answer accesses) (hid : ¬ IsFileName id) :
    answer = none ∧ accesses = [] := by
  cases h with
  | outside => exact ⟨rfl, rfl⟩
  | found h | failed h => exact absurd h hid

theorem Fetches.inside (h : s.Fetches source text accesses) {a : Access} (ha : a ∈ accesses) :
    ∃ id, (id = source ∨ s.slugs.get? source = some id) ∧ IsFileName id ∧ a.path = s.file id := by
  cases h with
  | direct h | noSlug h => exact ⟨source, .inl rfl, h.inside ha⟩
  | slug h hslug htarget | slugFailed h hslug htarget =>
    rcases List.mem_append.mp ha with ha | ha
    · exact ⟨source, .inl rfl, h.inside ha⟩
    · exact ⟨_, .inr hslug, htarget.inside ha⟩

/-- Of an id outside of the alphabet nothing is opened but the file of its slug, and that file or what
stands for the query is what it gives. -/
theorem Fetches.of_outside (h : s.Fetches source text accesses) (hsource : ¬ IsFileName source) :
    text = missingSql source ∨
      ∃ target, s.slugs.get? source = some target ∧ accesses = [.read (s.file target) (.ok text)] := by
  cases h with
  | direct h => exact absurd (h.of_outside hsource).1 (by simp)
  | noSlug h => exact .inl rfl
  | slugFailed h => exact .inl rfl
  | slug h hslug htarget =>
    refine .inr ⟨_, hslug, ?_⟩
    rw [(h.of_outside hsource).2, List.nil_append]
    cases htarget
    rfl

/-- Of an id whose slug stands for something outside of the alphabet only its own file is opened. -/
theorem Fetches.of_target_outside (h : s.Fetches source text accesses) {target : String}
    (hslug : s.slugs.get? source = some target) (htarget : ¬ IsFileName target) :
    text = missingSql source ∨ accesses = [.read (s.file source) (.ok text)] := by
  cases h with
  | direct h =>
    cases h
    exact .inr rfl
  | noSlug h => exact .inl rfl
  | slugFailed h => exact .inl rfl
  | slug h hother hread =>
    obtain rfl := Option.some.inj (hslug.symm.trans hother)
    exact absurd (hread.of_outside htarget).1 (by simp)

/-- What a query gives and opens. -/
structure Answers (s : QueryDirectory) (source text : String) (accesses : List Access) : Prop where
  fetches : s.Fetches source text accesses
  /-- A file that is opened is that of the id or of what its slug stands for. -/
  inside : ∀ a ∈ accesses, ∃ id,
    (id = source ∨ s.slugs.get? source = some id) ∧ IsFileName id ∧ a.path = s.file id
  of_outside : ¬ IsFileName source → text = missingSql source ∨
    ∃ target, s.slugs.get? source = some target ∧ accesses = [.read (s.file target) (.ok text)]
  of_target_outside : ∀ target, s.slugs.get? source = some target → ¬ IsFileName target →
    text = missingSql source ∨ accesses = [.read (s.file source) (.ok text)]

theorem Fetches.answers (h : s.Fetches source text accesses) : s.Answers source text accesses where
  fetches := h
  inside := fun _ => h.inside
  of_outside := h.of_outside
  of_target_outside := fun _ => h.of_target_outside

section

variable {σ : Type} (machine : Machine (StateM σ))

theorem recorded_readSql (s : QueryDirectory) (id : String) :
    Recorded (fun answer added => s.Reads id answer.toOption added) (s.readSql machine.recorded id)
      (s.readSql machine id) := by
  have hname := isFileId_iff_isFileName id
  rw [readSql, readSql, path?]
  by_cases h : isFileId id = true
  · rw [if_pos h]
    refine (recorded_readText _).bind fun answer added hadded => ?_
    rw [hadded]
    rcases answer with failure | sql
    · cases failure <;> exact .pure (.failed (hname.mp h) _)
    · exact .pure (.found (hname.mp h) sql)
  · rw [if_neg h]
    exact .pure (.outside fun hid => h (hname.mpr hid))

theorem recorded_fetch (s : QueryDirectory) (id : String) :
    Recorded (s.Fetches id) ((s.source machine.recorded).fetch id) ((s.source machine).fetch id) := by
  refine (recorded_readSql machine s id).bind fun answer added hread => ?_
  rcases answer with problem | sql
  · have hslug : Recorded (fun answer more => answer = s.slugs.getOr id .slugNotFound ∧ more = [])
        ((s.source machine.recorded).queryOfSlug id) ((s.source machine).queryOfSlug id) := .pure ⟨rfl, rfl⟩
    refine hslug.bind fun resolved nothing hresolved => ?_
    obtain ⟨rfl, rfl⟩ := hresolved
    cases hget : s.slugs.get? id with
    | none =>
      rw [Dict.getOr, hget]
      exact .pure (by simpa using Fetches.noSlug hread hget)
    | some target =>
      rw [Dict.getOr, hget]
      refine (recorded_readSql machine s target).bind fun answer more htarget => ?_
      rcases answer with problem | sql
      · exact .pure (by simpa using Fetches.slugFailed hread hget htarget)
      · exact .pure (by simpa using Fetches.slug hread hget htarget)
  · exact .pure (by simpa using Fetches.direct hread)

/-- What is fetched for queries from a directory is read from files that are right below its root, whatever the
ids are and whatever their slugs stand for. -/
theorem fetchEach_inside (s : QueryDirectory) (queries : List Query) :
    Recorded (fun texts accesses =>
        (∀ a ∈ accesses, ∃ name, IsFileName name ∧ a.path = joinPath s.root (name ++ ".sql") ∧
          Location.ofPath a.path = Location.ofPath s.root ++ [(name ++ ".sql").toList]) ∧
        ∃ parts : List (String × List Access),
          texts = parts.map Prod.fst ∧ accesses = (parts.map Prod.snd).flatten ∧
          List.Forall₂ (fun q part => s.Answers q.source part.1 part.2) queries parts)
      ((s.source machine.recorded).fetchEach queries) ((s.source machine).fetchEach queries) := by
  refine (Recorded.mapM (fun q : Query => recorded_fetch machine s q.source) queries).imp ?_
  intro texts accesses hparts
  obtain ⟨parts, htexts, haccesses, hall⟩ := hparts
  have hanswers := hall.imp fun _ _ h => h.answers
  refine ⟨?_, parts, htexts, haccesses, hanswers⟩
  intro a ha
  rw [haccesses, List.mem_flatten] at ha
  obtain ⟨added, hadded, ha⟩ := ha
  obtain ⟨part, hpart, rfl⟩ := List.mem_map.mp hadded
  obtain ⟨i, hi, rfl⟩ := List.getElem_of_mem hpart
  have hquery := hanswers.get (hanswers.length_eq ▸ hi) hi
  obtain ⟨name, -, hname, hpath⟩ := hquery.inside a ha
  exact ⟨name, hname, hpath, by rw [hpath, ofPath_file s hname]⟩

end

end QueryDirectory

end QueryBlend
