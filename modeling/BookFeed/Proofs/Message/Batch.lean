import BookFeed.Message.Frame
import BookFeed.Proofs.Json.Elements
import BookFeed.Proofs.Traversal
import Mathlib

/-!
# Frames in a batch

`Message.parseAll` reads all envelopes of an array before it makes the first message,
`Message.parse` reads the one envelope of a frame and makes its message at once. Frame by frame the
two agree on what is a message. They need not agree on the error: of several frames that are no
messages a batch reports the first that cannot be read, even if before it there is one that can be
read and of which no message can be made.

* `parse_of_isText`, `parseAll_of_isArrayOf`: what both do in terms of the trees of the frames;
* `find?_failures`: of the errors found frame by frame, which one comes from the first pass;
* `ofTrees_eq_ok_iff`, `ofTrees_eq_error_iff`: two passes against one;
* **`parseAll_of_elements`**: a batch against its frames, and when its error is that of the first;
* `unstampedThenHalfLevel_reported`: two frames for which it is not.
-/

namespace BookFeed

/-- It was not possible to read a frame. -/
def Error.isParse : Error → Bool
  | .parse _ => true
  | _ => false

namespace Message

open Json (IsText IsArrayOf document readDocument readDocument_of_complete)

variable {now : Binary64} {text frame : String} {elements : List String} {m : Message} {e : Error}

/-! ## Frames as trees -/

/-- The message of a tree. -/
def ofTree (now : Binary64) (tree : Json) : Except Error Message :=
  match Envelope.ofJson tree with
  | .error d => .error (decodeError d)
  | .ok envelope => envelope.toMessage now

theorem parse_of_isText (h : IsText frame) :
    parse now frame = ofTree now (document frame).tree := by
  rw [parse, readDocument_of_complete _ h.1]
  rfl

/-- The messages of trees: all envelopes are read, then all messages are made. -/
def ofTrees (now : Binary64) (trees : List Json) : Except Error (List Message) :=
  match trees.mapM Envelope.ofJson with
  | .error d => .error (decodeError d)
  | .ok envelopes => envelopes.mapM (·.toMessage now)

theorem parseAll_of_isArrayOf (h : IsArrayOf text elements) :
    parseAll now text = ofTrees now (elements.map fun e => (document e).tree) := by
  obtain ⟨hcomplete, htree⟩ := Json.document_of_elements h
  rw [parseAll, readDocument_of_complete _ hcomplete, htree]
  rfl

/-! ## Errors -/

theorem isParse_of_make {kind : MessageKind} {pair : String} {updateId rangeStart : Option UInt64}
    {time : Binary64} {content : Content}
    (h : make kind pair updateId rangeStart time content = .error e) : e.isParse = false := by
  unfold make at h
  split at h
  · rw [← Except.error.inj h]
    rfl
  · split at h
    · rw [← Except.error.inj h]
      rfl
    · cases h

variable {envelope : Envelope}

theorem isParse_of_bookContent (h : envelope.bookContent = .error e) : e.isParse = false := by
  unfold Envelope.bookContent at h
  split at h <;> cases h
  rfl

theorem isParse_of_tradeField {α : Type} {name : String} {value : Option α}
    (h : envelope.tradeField name value = .error e) : e.isParse = false := by
  unfold Envelope.tradeField at h
  split at h <;> cases h
  rfl

theorem isParse_of_tradeContent (h : envelope.tradeContent = .error e) : e.isParse = false := by
  unfold Envelope.tradeContent at h
  rcases bind_eq_error h with h | ⟨_, -, h⟩
  · exact isParse_of_tradeField h
  rcases bind_eq_error h with h | ⟨_, -, h⟩
  · exact isParse_of_tradeField h
  rcases bind_eq_error h with h | ⟨_, -, h⟩
  · exact isParse_of_tradeField h
  rcases bind_eq_error h with h | ⟨_, -, h⟩
  · exact isParse_of_tradeField h
  · cases h

/-- An envelope has been read, even if no message can be made of it. -/
theorem isParse_of_toMessage (h : envelope.toMessage now = .error e) : e.isParse = false := by
  unfold Envelope.toMessage at h
  split at h <;> rcases bind_eq_error h with h | ⟨_, -, h⟩
  · exact isParse_of_bookContent h
  · unfold Message.snapshot at h
    split at h
    · cases h
      rfl
    · split at h
      · exact isParse_of_make h
      · cases h
        rfl
  · exact isParse_of_bookContent h
  · unfold Message.diff at h
    split at h
    · exact isParse_of_make h
    · cases h
      rfl
  · exact isParse_of_tradeContent h
  · exact isParse_of_make h

/-- **Of the errors found frame by frame, the first failure to read comes from the first tree that
cannot be read.** -/
theorem find?_failures (now : Binary64) (trees : List Json) :
    ((trees.map (ofTree now)).filterMap error?).find? Error.isParse =
      ((trees.map Envelope.ofJson).filterMap error?).head?.map decodeError := by
  induction trees with
  | nil => rfl
  | cons tree trees ih =>
    rw [List.map_cons, List.map_cons, ofTree]
    cases htree : Envelope.ofJson tree with
    | error d => rfl
    | ok envelope =>
      rw [List.filterMap_cons_none (error?_ok envelope), ← ih]
      cases hmade : envelope.toMessage now with
      | ok m => simp only [hmade, List.filterMap_cons_none (error?_ok m)]
      | error e =>
        have he := isParse_of_toMessage hmade
        simp only [hmade, List.filterMap_cons_some (error?_error e), List.find?_cons_of_neg, he,
          Bool.false_eq_true, not_false_eq_true]

/-- Of errors found frame by frame, the error of a batch: the first failure to read, or else the
first of all. -/
def reported (errors : List Error) : Option Error := errors.find? Error.isParse <|> errors.head?

/-- It is the first of all exactly if that is a failure to read or none is. -/
theorem reported_eq_head?_iff {errors : List Error} : reported errors = errors.head? ↔
    ∀ first ∈ errors.head?, first.isParse = false → ∀ e ∈ errors, e.isParse = false := by
  cases errors with
  | nil => simp [reported]
  | cons first errors =>
    cases hfirst : first.isParse with
    | true => simp [reported, hfirst]
    | false =>
      cases hfind : errors.find? Error.isParse with
      | none =>
        have hnone := List.find?_eq_none.mp hfind
        simp only [reported, List.find?_cons, hfirst, hfind]
        simpa [hfirst] using hnone
      | some e =>
        have he := List.find?_some hfind
        have hne : e ≠ first := fun h => by simp [h, hfirst] at he
        simp only [reported, List.find?_cons, hfirst, hfind]
        simpa [hne, hfirst] using ⟨e, List.mem_of_find?_eq_some hfind, he⟩

/-- If all trees can be read, the messages are made one by one. -/
theorem map_ofTree {trees : List Json} {envelopes : List Envelope}
    (h : trees.map Envelope.ofJson = envelopes.map .ok) :
    trees.map (ofTree now) = envelopes.map (·.toMessage now) := by
  have hcomp : ofTree now = (fun d => match d with
      | .error d => .error (decodeError d)
      | .ok envelope => envelope.toMessage now) ∘ Envelope.ofJson := rfl
  rw [hcomp, ← List.map_map, h, List.map_map]
  rfl

/-- **The error of two passes**: one pass finds the same errors, and it is the one reported of
them. -/
theorem ofTrees_eq_error_iff {trees : List Json} :
    ofTrees now trees = .error e ↔
      reported ((trees.map (ofTree now)).filterMap error?) = some e := by
  unfold ofTrees reported
  rw [find?_failures]
  cases hread : trees.mapM Envelope.ofJson with
  | error d =>
    rw [mapM_eq_error_iff.mp hread]
    simp
  | ok envelopes =>
    have hmap := mapM_eq_ok_iff.mp hread
    rw [hmap, filterMap_error?_map_ok, map_ofTree hmap]
    simpa using mapM_eq_error_iff

/-- **Two passes have a result exactly if one pass has**, and the same. -/
theorem ofTrees_eq_ok_iff {trees : List Json} {ms : List Message} :
    ofTrees now trees = .ok ms ↔ trees.map (ofTree now) = ms.map .ok := by
  unfold ofTrees
  cases hread : trees.mapM Envelope.ofJson with
  | error d =>
    refine ⟨fun h => (by cases h), fun h => ?_⟩
    have hfailures := find?_failures now trees
    rw [h, filterMap_error?_map_ok, mapM_eq_error_iff.mp hread] at hfailures
    cases hfailures
  | ok envelopes =>
    rw [map_ofTree (mapM_eq_ok_iff.mp hread)]
    exact mapM_eq_ok_iff

theorem map_parse_of_isArrayOf (now : Binary64) (h : IsArrayOf text elements) :
    elements.map (parse now) =
      (elements.map fun e => (document e).tree).map (ofTree now) := by
  rw [List.map_map]
  exact List.map_congr_left fun e he => parse_of_isText (h.isText e he)

/-- **A batch against its frames.** The text of an array has elements; each of them is read as a
frame of its own. The batch has messages exactly if all its frames have, and the same in the same
order. Otherwise it reports the first frame that cannot be read, or, if all can be read, the first of
which no message can be made. That is the first error found frame by frame exactly if this is a
failure to read or there is none. -/
theorem parseAll_of_elements (now : Binary64) {text : String} {items : List Json}
    (htext : IsText text) (harray : (document text).tree = .array items) :
    (∃ elements, IsArrayOf text elements) ∧
      ∀ elements, IsArrayOf text elements →
        let errors := (elements.map (parse now)).filterMap error?
        (∀ ms, parseAll now text = .ok ms ↔ elements.map (parse now) = ms.map .ok) ∧
        (∀ e, parseAll now text = .error e ↔ reported errors = some e) ∧
        ((∀ e, parseAll now text = .error e ↔ errors.head? = some e) ↔
          ∀ first ∈ errors.head?, first.isParse = false → ∀ e ∈ errors, e.isParse = false) := by
  refine ⟨Json.exists_elements htext harray, fun elements h => ?_⟩
  have hparse := map_parse_of_isArrayOf now h
  have herror : ∀ e, parseAll now text = .error e ↔
      reported ((elements.map (parse now)).filterMap error?) = some e := fun e => by
    rw [parseAll_of_isArrayOf h, ofTrees_eq_error_iff, hparse]
  refine ⟨fun ms => ?_, herror, ?_⟩
  · rw [parseAll_of_isArrayOf h, ofTrees_eq_ok_iff, hparse]
  · rw [← reported_eq_head?_iff]
    refine ⟨fun h => Option.ext fun e => (herror e).symm.trans (h e), fun h e => ?_⟩
    rw [herror, h]

/-- An array of one diff. -/
def oneDiff : String :=
  "[ \x7b\"type\":\"diff\",\"trading_pair\":\"B\",\"update_id\":1,\"bids\":[]\x7d]"

theorem parseAll_of_elements_oneDiff :
    (IsText oneDiff ∧ ∃ items, (document oneDiff).tree = .array items) ∧
      ∃ elements, IsArrayOf oneDiff elements ∧
        elements.map (parse ⟨0⟩) = [.ok ⟨.diff, ⟨0⟩, "B", 1, none, .levels [] []⟩] := by
  have htext : IsText oneDiff := ⟨by cbv, by cbv⟩
  have harray : (document oneDiff).tree = .array [.object [("type".toList, .string "diff".toList),
      ("trading_pair".toList, .string "B".toList), ("update_id".toList, .number ['1']),
      ("bids".toList, .array [])]] := by cbv
  have hread : readDocument (Json.readList Envelope.ofJson) oneDiff =
      .ok [{ kind := .diff, pair := "B", updateId := some 1, bids := some [] }] := by cbv
  have hparse : parseAll ⟨0⟩ oneDiff = .ok [⟨.diff, ⟨0⟩, "B", 1, none, .levels [] []⟩] := by
    rw [parseAll, hread]
    rfl
  obtain ⟨⟨elements, helements⟩, hbatch⟩ := parseAll_of_elements ⟨0⟩ htext harray
  have hframes := ((hbatch elements helements).1 _).mp hparse
  exact ⟨⟨htext, _, harray⟩, elements, helements, hframes⟩

/-- A snapshot without a time. -/
def unstamped : String := "\x7b\"type\":\"snapshot\",\"trading_pair\":\"B\",\"bids\":[]\x7d"

/-- A diff with a price level that has no amount. -/
def halfLevel : String := "\x7b\"type\":\"diff\",\"trading_pair\":\"B\",\"bids\":[[\"1\"]]\x7d"

def unstampedThenHalfLevel : String := "[" ++ unstamped ++ ", " ++ halfLevel ++ "]"

/-- Both frames are refused, and the batch reports the second. -/
theorem unstampedThenHalfLevel_reported :
    IsArrayOf unstampedThenHalfLevel [unstamped, halfLevel] ∧
      parse ⟨0⟩ unstamped = .error (.missingTimestamp "B") ∧
      parse ⟨0⟩ halfLevel = .error (.parse "Invalid price level format") ∧
      parseAll ⟨0⟩ unstampedThenHalfLevel = .error (.parse "Invalid price level format") := by
  refine ⟨⟨?_, [], [], [], [unstamped.toList, ' ' :: halfLevel.toList], ?_, ?_, ?_, ?_, ?_⟩,
    by cbv, by cbv, by cbv⟩
  · simp only [List.forall_mem_cons, List.not_mem_nil, false_implies, implies_true, and_true]
    exact ⟨⟨by cbv, by cbv⟩, by cbv, by cbv⟩
  · simp [Json.Blank]
  · simp [Json.Blank]
  · simp [Json.Blank]
  · refine .cons ⟨[], [], ?_, ?_, by simp⟩ (.cons ⟨[' '], [], ?_, ?_, by simp⟩ .nil) <;>
      simp [Json.Blank, Json.isBlank]
  · simp [unstampedThenHalfLevel, Json.joined_cons_cons]

end Message

end BookFeed
