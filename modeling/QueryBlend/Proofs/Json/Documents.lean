import QueryBlend.Json.Reading
import QueryBlend.Proofs.Json.Tokens
/-!
# What is written is read into its document

**Documents.** `Value.doc` is the document of a value. The tokens of a value take the machine that builds
documents from where a value is due to where that document is given (`build_tokens`), whatever is still
open around it. So the text of a value, written in either way, is a document with nothing behind it
(`document_render`, `document_renderLines`).

**Readers.** A reader of values of a type makes readers of lists (`readList_doc`) and of dictionaries
(`readDict_doc`) of them. A record is read member by member (`readObject_cons`).
-/
namespace QueryBlend.Json

/-! ## Documents -/

mutual

def Value.doc : Value → Doc
  | .bool b => .bool b
  | .text t => .text t
  | .list vs => .list (itemDocs vs) none
  | .object ms => .object (memberDocs ms) none

def itemDocs : List Value → List Doc
  | [] => []
  | v :: vs => v.doc :: itemDocs vs

/-- The documents of members, under their names. -/
def memberDocs : List (List Char × Value) → List (Token × Doc)
  | [] => []
  | (k, v) :: ms => (.text k, v.doc) :: memberDocs ms

end

/-- The machine goes on with the rest of the tokens. -/
def Step.resume (ts : List Token) : Step → Doc × Bool
  | .go spot frames => build spot frames ts
  | .stop d => (d, false)
  | .done d => (d, ts != [.endOfText])

theorem build_cons (spot : Spot) (frames : List Frame) (t : Token) (ts : List Token) :
    build spot frames (t :: ts) = (step frames t spot).resume ts := by
  rw [build]
  cases step frames t spot <;> rfl

/-- A value does not start with what ends a list, so as the first of a list it is due like any other. -/
theorem build_firstItem (v : Value) (frames : List Frame) (ts : List Token) :
    build .firstItem frames (v.tokens ++ ts) = build .value (.list [] :: frames) (v.tokens ++ ts) := by
  cases v with
  | bool _ => rw [Value.tokens, List.singleton_append, build_cons, build_cons]; rfl
  | text _ => rw [Value.tokens, List.singleton_append, build_cons, build_cons]; rfl
  | list vs => cases vs <;> rw [Value.tokens, List.cons_append, build_cons, build_cons] <;> rfl
  | object ms => cases ms <;> rw [Value.tokens, List.cons_append, build_cons, build_cons] <;> rfl

/-- A name and its colon. -/
theorem build_name {spot : Spot} {members : List (Token × Doc)}
    (hspot : spot = .name members ∨ spot = .firstName ∧ members = []) (k : List Char)
    (frames : List Frame) (ts : List Token) :
    build spot frames (.text k :: .colon :: ts) =
      build .value (.object members (.text k) :: frames) ts := by
  rcases hspot with rfl | ⟨rfl, rfl⟩
  · exact build_go rfl _ |>.trans (build_go rfl _)
  · exact build_go rfl _ |>.trans (build_go rfl _)

mutual

/-- The tokens of a value give its document to what waits for it. -/
theorem build_tokens (v : Value) (frames : List Frame) (ts : List Token) :
    build .value frames (v.tokens ++ ts) = (give v.doc frames).resume ts := by
  match v with
  | .bool b => rw [Value.tokens, List.singleton_append, build_cons, Value.doc]; rfl
  | .text t => rw [Value.tokens, List.singleton_append, build_cons, Value.doc]; rfl
  | .list [] =>
    rw [Value.tokens, List.cons_append, build_go rfl, List.singleton_append, build_cons, Value.doc,
      itemDocs]
    rfl
  | .list (v :: vs) =>
    rw [Value.tokens, List.cons_append, List.append_assoc, build_go rfl, build_firstItem,
      build_tokens v]
    show build (.afterItem [v.doc]) frames (itemTokens vs ++ ts) = _
    rw [build_itemTokens vs, Value.doc, itemDocs]
    rfl
  | .object [] =>
    rw [Value.tokens, List.cons_append, build_go rfl, List.singleton_append, build_cons, Value.doc,
      memberDocs]
    rfl
  | .object ((k, v) :: ms) =>
    rw [Value.tokens, List.cons_append, List.cons_append, List.cons_append, List.append_assoc,
      build_go rfl, build_name (.inr ⟨rfl, rfl⟩), build_tokens v]
    show build (.afterMember [(.text k, v.doc)]) frames (memberTokens ms ++ ts) = _
    rw [build_memberTokens ms, Value.doc, memberDocs]
    rfl

theorem build_itemTokens (vs : List Value) (items : List Doc) (frames : List Frame)
    (ts : List Token) : build (.afterItem items) frames (itemTokens vs ++ ts) =
      (give (.list (items.reverse ++ itemDocs vs) none) frames).resume ts := by
  match vs with
  | [] =>
    rw [itemTokens, List.singleton_append, build_cons, itemDocs, List.append_nil]
    rfl
  | v :: vs =>
    rw [itemTokens, List.cons_append, List.append_assoc, build_go rfl, build_tokens v]
    show build (.afterItem (v.doc :: items)) frames (itemTokens vs ++ ts) = _
    rw [build_itemTokens vs, List.reverse_cons, List.append_assoc, List.singleton_append, itemDocs]

theorem build_memberTokens (ms : List (List Char × Value)) (members : List (Token × Doc))
    (frames : List Frame) (ts : List Token) :
    build (.afterMember members) frames (memberTokens ms ++ ts) =
      (give (.object (members.reverse ++ memberDocs ms) none) frames).resume ts := by
  match ms with
  | [] =>
    rw [memberTokens, List.singleton_append, build_cons, memberDocs, List.append_nil]
    rfl
  | (k, v) :: ms =>
    rw [memberTokens, List.cons_append, List.cons_append, List.cons_append, List.append_assoc,
      build_go rfl, build_name (.inl rfl), build_tokens v]
    show build (.afterMember ((.text k, v.doc) :: members)) frames (memberTokens ms ++ ts) = _
    rw [build_memberTokens ms, List.reverse_cons, List.append_assoc, List.singleton_append, memberDocs]

end

theorem build_document (v : Value) : build .value [] (v.tokens ++ [.endOfText]) = (v.doc, false) := by
  rw [build_tokens]
  rfl

theorem tokens_nil : tokens [] = [.endOfText] := by rw [tokens]

theorem document_render (v : Value) : document v.render = (v.doc, false) := by
  have h := tokens_render v []
  rw [List.append_nil, tokens_nil] at h
  rw [document, h, build_document]

theorem document_renderLines (v : Value) (level : Nat) :
    document (v.renderLines level) = (v.doc, false) := by
  have h := tokens_renderLines level v []
  rw [List.append_nil, tokens_nil] at h
  rw [document, h, build_document]

/-! ## Readers -/

variable {α δ : Type}

/-- A value is read back, in either way in which it is written. -/
theorem readDocument_written {read : Doc → Except Problem α} {v : Value} {x : α}
    (h : read v.doc = .ok x) :
    readDocument read v.render = .ok x ∧
      ∀ level, readDocument read (v.renderLines level) = .ok x := by
  refine ⟨?_, fun level => ?_⟩
  · rw [readDocument, document_render]
    simp only [h]
    rfl
  · rw [readDocument, document_renderLines]
    simp only [h]
    rfl

theorem readList_doc {read : Doc → Except Problem α} {value : α → Value} {xs : List α}
    (h : ∀ x ∈ xs, read (value x).doc = .ok x) :
    readList read (Value.list (xs.map value)).doc = .ok xs := by
  have hitems : (itemDocs (xs.map value)).mapM read = .ok xs := by
    induction xs with
    | nil => rfl
    | cons x xs ih =>
      rw [List.map_cons, itemDocs, List.mapM_cons, h x List.mem_cons_self,
        ih fun y hy => h y (List.mem_cons_of_mem _ hy)]
      rfl
  rw [Value.doc, readList, hitems]
  rfl

/-- Members under distinct names that `d` does not have are put into it as they come. -/
theorem readMembers_doc {read : Doc → Except Problem α} {value : α → Value} {d : Dict α}
    {es : List (String × α)} (h : ∀ e ∈ es, read (value e.2).doc = .ok e.2)
    (hdistinct : (d.keys ++ es.map Prod.fst).Nodup) :
    ∃ all : Dict α, all.entries = d.entries ++ es ∧
      readMembers read d (memberDocs (es.map fun e => (e.1.toList, value e.2))) = .ok all := by
  induction es generalizing d with
  | nil => exact ⟨d, (List.append_nil _).symm, by rw [List.map_nil, memberDocs, readMembers]⟩
  | cons e es ih =>
    have hnew : e.1 ∉ d.keys := fun hk =>
      (List.nodup_append.mp hdistinct).2.2 e.1 hk e.1 List.mem_cons_self rfl
    have hkeys : (d.insert e.1 e.2).keys = d.keys ++ [e.1] := by rw [Dict.keys_insert, if_neg hnew]
    have hentries : (d.insert e.1 e.2).entries = d.entries ++ [e] := Dict.put_new hnew e.2
    obtain ⟨all, hall, hread⟩ := ih (d := d.insert e.1 e.2)
      (fun e' he' => h e' (List.mem_cons_of_mem _ he')) (by
        rw [hkeys, List.append_assoc, List.singleton_append]
        exact hdistinct)
    refine ⟨all, by rw [hall, hentries, List.append_assoc, List.singleton_append], ?_⟩
    rw [List.map_cons, memberDocs, readMembers, readName, h e List.mem_cons_self]
    simp only [bind, Except.bind, String.ofList_toList]
    exact hread

theorem readDict_doc {read : Doc → Except Problem α} {value : α → Value} (d : Dict α)
    (h : ∀ e ∈ d.entries, read (value e.2).doc = .ok e.2) :
    readDict read (Value.object (d.entries.map fun e => (e.1.toList, value e.2))).doc = .ok d := by
  obtain ⟨all, hall, hread⟩ := readMembers_doc (d := {}) h d.distinct
  have hsame : all = d := Dict.ext hall
  rw [Value.doc, readDict, hread, hsame]
  rfl

namespace Schema

variable {s : Schema δ α}

/-- A field that has not been read yet is put into the draft. -/
theorem readObject_cons {seen : List String} {draft draft' : δ} {name : String} {v : Value}
    {ms : List (List Char × Value)} (hfield : (s.fields.any fun f => f.1 == name) = true)
    (hnew : name ∉ seen) (hput : s.put draft name v.doc = .ok draft') :
    s.readObject seen draft (memberDocs ((name.toList, v) :: ms)) =
      s.readObject (name :: seen) draft' (memberDocs ms) := by
  rw [memberDocs, readObject, readName]
  simp only [bind, Except.bind, String.ofList_toList, hfield, hnew, hput, if_true, if_false]

theorem readObject_nil {seen : List String} {draft : δ} :
    s.readObject seen draft (memberDocs []) = .ok draft := by
  rw [memberDocs, readObject]

/-- A record is what is made of the draft of its members. -/
theorem read_doc {ms : List (List Char × Value)} {draft : δ}
    (h : s.readObject [] s.start (memberDocs ms) = .ok draft) :
    s.read (Value.object ms).doc = s.finish draft := by
  rw [Value.doc, read, h]
  rfl

end Schema

end QueryBlend.Json
