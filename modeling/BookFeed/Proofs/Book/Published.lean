import BookFeed.Book.Json
import BookFeed.Proofs.Book.Health
import BookFeed.Proofs.Json.Writing
import BookFeed.Proofs.Traversal
import Mathlib

/-!
# A published state survives as text

A state is published as the text of a record and read back by its consumers. What they get is the
same state, with every string, count and level, and with decimals of the same value and scale. The
one thing that is lost is the sign of a zero (`BookState.plain`), and that is also the only thing in
which the text of what was read differs from the text that was published (`SignAside`).

* `Level.ofJson_toJson`, `BookMetrics.ofJson_toJson`, `BookState.ofJson_toJson`: the trees;
* `BookState.read_toText`: the texts;
* `BookState.signAside`: the text of what has been read;
* **`state_survives`**: all of it, for every book that has a state.
-/

namespace BookFeed

open Json (Written Decoded readDecimal readOptional readList readRecord joined render)

/-! ## States but for the signs of zeros -/

/-- The decimals are one number with one scale. -/
def Decimal.Same (a b : Decimal) : Prop := a.value = b.value ∧ a.scale = b.scale

theorem Decimal.same_plain (a : Decimal) : a.Same a.plain := ⟨a.value_plain.symm, rfl⟩

theorem Decimal.same_map_plain (a : Option Decimal) :
    Option.Rel Decimal.Same a (a.map Decimal.plain) := by
  cases a with
  | none => exact .none
  | some a => exact .some a.same_plain

def Level.plain (l : Level) : Level := ⟨l.price.plain, l.quantity.plain⟩

structure Level.Same (l l' : Level) : Prop where
  price : l.price.Same l'.price
  quantity : l.quantity.Same l'.quantity

theorem Level.same_map_plain (ls : List Level) : List.Forall₂ Level.Same ls (ls.map Level.plain) :=
  List.forall₂_map_right_iff.mpr
    (List.forall₂_same.mpr fun l _ => ⟨l.price.same_plain, l.quantity.same_plain⟩)

namespace BookMetrics

def plain (m : BookMetrics) : BookMetrics where
  midPrice := m.midPrice.map Decimal.plain
  spreadBps := m.spreadBps.map Decimal.plain
  imbalance := m.imbalance.map Decimal.plain
  lastTradePrice := m.lastTradePrice.map Decimal.plain
  bidDepth := m.bidDepth.plain
  askDepth := m.askDepth.plain
  bidLevels := m.bidLevels
  askLevels := m.askLevels

structure Same (m m' : BookMetrics) : Prop where
  midPrice : Option.Rel Decimal.Same m.midPrice m'.midPrice
  spreadBps : Option.Rel Decimal.Same m.spreadBps m'.spreadBps
  imbalance : Option.Rel Decimal.Same m.imbalance m'.imbalance
  lastTradePrice : Option.Rel Decimal.Same m.lastTradePrice m'.lastTradePrice
  bidDepth : m.bidDepth.Same m'.bidDepth
  askDepth : m.askDepth.Same m'.askDepth
  bidLevels : m.bidLevels = m'.bidLevels
  askLevels : m.askLevels = m'.askLevels

theorem same_plain (m : BookMetrics) : m.Same m.plain where
  midPrice := Decimal.same_map_plain _
  spreadBps := Decimal.same_map_plain _
  imbalance := Decimal.same_map_plain _
  lastTradePrice := Decimal.same_map_plain _
  bidDepth := Decimal.same_plain _
  askDepth := Decimal.same_plain _
  bidLevels := rfl
  askLevels := rfl

/-- The levels can be counted in 64 bits. -/
def Countable (m : BookMetrics) : Prop := m.bidLevels < UInt64.size ∧ m.askLevels < UInt64.size

end BookMetrics

namespace BookState

/-- The state without the signs of zeros. -/
def plain (s : BookState) : BookState :=
  { s with
    bids := s.bids.map Level.plain
    asks := s.asks.map Level.plain
    metrics := s.metrics.plain }

/-- The states are equal but for the signs of zeros. -/
structure Same (s s' : BookState) : Prop where
  pair : s.pair = s'.pair
  snapshotId : s.snapshotId = s'.snapshotId
  lastUpdateId : s.lastUpdateId = s'.lastUpdateId
  bids : List.Forall₂ Level.Same s.bids s'.bids
  asks : List.Forall₂ Level.Same s.asks s'.asks
  metrics : s.metrics.Same s'.metrics

theorem same_plain (s : BookState) : s.Same s.plain where
  pair := rfl
  snapshotId := rfl
  lastUpdateId := rfl
  bids := Level.same_map_plain _
  asks := Level.same_map_plain _
  metrics := s.metrics.same_plain

end BookState

/-! ## Trees -/

variable {m : BookMetrics} {s : BookState}

@[simp] theorem readDecimal_toJson (d : Decimal) : readDecimal d.toJson = .ok d.plain := by
  show Json.readDecimalText (.ofString d.toText) = _
  rw [Json.readDecimalText, Json.readText_ofString]
  show Json.ofOption? (Decimal.read? d.toText) = _
  rw [Decimal.read?_toText]
  rfl

@[simp] theorem readOptional_toJson (d : Option Decimal) :
    readOptional readDecimal (.ofOption Decimal.toJson d) = .ok (d.map Decimal.plain) := by
  cases d with
  | none => rfl
  | some d => exact congrArg (Except.map some) (readDecimal_toJson d)

theorem Level.ofJson_toJson (l : Level) : Level.ofJson l.toJson = .ok l.plain := by
  rw [Level.ofJson, Level.toJson, Json.readRecord_ofFields]
  case hnames => rfl
  case hdistinct => decide
  simp [RowFields.put]
  rfl

@[simp] theorem readList_levels (ls : List Level) :
    readList Level.ofJson (.array (ls.map Level.toJson)) = .ok (ls.map Level.plain) := by
  rw [readList, mapM_eq_ok_iff, List.map_map, List.map_map]
  exact List.map_congr_left fun l _ => l.ofJson_toJson

theorem BookMetrics.ofJson_toJson (hm : m.Countable) : ofJson m.toJson = .ok m.plain := by
  have hread : readRecord fieldNames put {} m.toJson = .ok
      { midPrice := m.midPrice.map Decimal.plain
        spreadBps := m.spreadBps.map Decimal.plain
        imbalance := m.imbalance.map Decimal.plain
        lastTradePrice := m.lastTradePrice.map Decimal.plain
        bidDepth := some m.bidDepth.plain
        askDepth := some m.askDepth.plain
        bidLevels := some (UInt64.ofNat m.bidLevels)
        askLevels := some (UInt64.ofNat m.askLevels) } := by
    rw [toJson, Json.readRecord_ofFields]
    case hnames => rfl
    case hdistinct => decide
    simp [put, Json.readCount_ofNat hm.1, Json.readCount_ofNat hm.2]
    rfl
  rw [ofJson, hread]
  show Except.ok { m.plain with
    bidLevels := (UInt64.ofNat m.bidLevels).toNat
    askLevels := (UInt64.ofNat m.askLevels).toNat } = _
  rw [UInt64.toNat_ofNat_of_lt' hm.1, UInt64.toNat_ofNat_of_lt' hm.2]
  rfl

theorem BookState.ofJson_toJson (hs : s.metrics.Countable) : ofJson s.toJson = .ok s.plain := by
  rw [ofJson, toJson, Json.readRecord_ofFields]
  case hnames => rfl
  case hdistinct => decide
  simp [put, BookMetrics.ofJson_toJson hs]
  rfl

/-! ## Texts -/

theorem Decimal.written_toJson (d : Decimal) : Written d.toJson := .string d.toText

theorem Decimal.written_ofOption (d : Option Decimal) :
    Written (.ofOption Decimal.toJson d) := by
  cases d with
  | none => exact .null
  | some d => exact d.written_toJson

theorem Level.written_levels (ls : List Level) : Written (.array (ls.map Level.toJson)) :=
  .array (List.forall_mem_map.mpr fun l _ => .record (by simp [Decimal.written_toJson]))

theorem BookMetrics.written_toJson (m : BookMetrics) : Written m.toJson :=
  .record (by simp [Decimal.written_toJson, Decimal.written_ofOption, Written.count])

theorem BookState.written_toJson (s : BookState) : Written s.toJson :=
  .record (by simp [Level.written_levels, BookMetrics.written_toJson, Written.string,
    Json.ofCount, Written.count])

/-- **A published text is read back**, but for the signs of zeros. -/
theorem BookState.read_toText (hs : s.metrics.Countable) : read s.toText = .ok s.plain := by
  rw [read, toText, Json.readDocument_toText _ s.written_toJson, ofJson_toJson hs]

/-! ## Signs of zeros in texts -/

/-- The texts are the same, but for signs in front of zeros that stand alone between quotes. -/
inductive SignAside : List Char → List Char → Prop
  | nil : SignAside [] []
  | cons (c : Char) {cs cs' : List Char} (h : SignAside cs cs') : SignAside (c :: cs) (c :: cs')
  | zero {zeros cs cs' : List Char} (hne : zeros ≠ []) (hzeros : ∀ c ∈ zeros, c = '0' ∨ c = '.')
      (h : SignAside cs cs') :
      SignAside ('"' :: '-' :: (zeros ++ '"' :: cs)) ('"' :: (zeros ++ '"' :: cs'))

namespace SignAside

variable {cs cs' ds ds' : List Char}

theorem refl (cs : List Char) : SignAside cs cs := by
  induction cs with
  | nil => exact .nil
  | cons c cs ih => exact .cons c ih

theorem append (h : SignAside cs cs') (hd : SignAside ds ds') :
    SignAside (cs ++ ds) (cs' ++ ds') := by
  induction h with
  | nil => exact hd
  | cons c _ ih => exact .cons c ih
  | zero hne hzeros _ ih =>
    simp only [List.cons_append, List.append_assoc]
    exact .zero hne hzeros ih

theorem joined {texts texts' : List (List Char)} (h : List.Forall₂ SignAside texts texts') :
    SignAside (Json.joined texts) (Json.joined texts') := by
  induction h with
  | nil => exact .nil
  | cons h htexts ih =>
    cases htexts with
    | nil => simpa using h
    | cons =>
      rw [Json.joined_cons_cons, Json.joined_cons_cons]
      exact h.append (.cons ',' ih)

/-- Trees with such texts, side by side in an array. -/
theorem array {items items' : List Json}
    (h : List.Forall₂ (fun j j' => SignAside (render j) (render j')) items items') :
    SignAside (render (.array items)) (render (.array items')) := by
  rw [render, render, Json.renderItems_eq, Json.renderItems_eq]
  refine .cons '[' (append (joined ?_) (refl _))
  rwa [List.forall₂_map_left_iff, List.forall₂_map_right_iff]

/-- Trees with such texts, as the fields of a record. -/
theorem record {fields fields' : List (String × Json)} (h : List.Forall₂ (fun f f' =>
    f.1 = f'.1 ∧ SignAside (render f.2) (render f'.2)) fields fields') :
    SignAside (render (.ofFields fields)) (render (.ofFields fields')) := by
  rw [Json.ofFields, Json.ofFields, render, render, Json.renderFields_eq, Json.renderFields_eq]
  refine .cons '\x7b' (append (joined ?_) (refl _))
  rw [List.map_map, List.map_map, List.forall₂_map_left_iff, List.forall₂_map_right_iff]
  refine h.imp fun f f' hfield => ?_
  simp only [Function.comp_apply, Json.renderField, hfield.1]
  exact .cons '"' ((refl _).append (.cons '"' (.cons ':' hfield.2)))

end SignAside

/-- A decimal is written as it is, between quotes. -/
theorem Decimal.render_toJson (d : Decimal) : render d.toJson = '"' :: (d.toChars ++ ['"']) := by
  have hescape : Json.escape d.toChars = d.toChars := Json.escape_eq_self fun c hc => by
    rcases mem_toChars hc with hdigit | rfl | rfl
    · have hquote : c ≠ '"' := fun heq => absurd (heq ▸ hdigit) (by decide)
      have hbackslash : c ≠ '\\' := fun heq => absurd (heq ▸ hdigit) (by decide)
      have hlow : 48 ≤ c.toNat := by
        rw [Char.isDigit, Bool.and_eq_true, decide_eq_true_eq] at hdigit
        exact hdigit.1
      exact Json.escapeChar_eq_self hquote hbackslash (Nat.le_trans (by decide) hlow)
    · rfl
    · rfl
  rw [toJson, Json.ofString, toText, String.toList_ofList, hescape, render]
  rfl

theorem Decimal.signAside (d : Decimal) : SignAside (render d.toJson) (render d.plain.toJson) := by
  rw [render_toJson, render_toJson, toChars_plain]
  split
  · rename_i hzero
    exact .zero d.plain.toChars_ne_nil (fun c hc => mem_toChars_of_zero hzero.2 hc) .nil
  · exact .refl _

theorem Decimal.signAside_ofOption (d : Option Decimal) :
    SignAside (render (.ofOption toJson d)) (render (.ofOption toJson (d.map plain))) := by
  cases d with
  | none => exact .refl _
  | some d => exact d.signAside

theorem Level.signAside (l : Level) : SignAside (render l.toJson) (render l.plain.toJson) :=
  .record (by simp [Level.plain, Decimal.signAside])

theorem Level.signAside_levels (ls : List Level) : SignAside (render (.array (ls.map toJson)))
    (render (.array (ls.map (toJson ∘ plain)))) := by
  refine .array ?_
  rw [List.forall₂_map_left_iff, List.forall₂_map_right_iff, List.forall₂_same]
  exact fun l _ => l.signAside

theorem BookMetrics.signAside (m : BookMetrics) :
    SignAside (render m.toJson) (render m.plain.toJson) :=
  .record (by simp [plain, Decimal.signAside, Decimal.signAside_ofOption, SignAside.refl])

/-- **The text of what has been read is the text that was published**, but for signs of zeros. -/
theorem BookState.signAside (s : BookState) :
    SignAside s.toText.toList s.plain.toText.toList := by
  rw [toText, toText, Json.toText, Json.toText, String.toList_ofList, String.toList_ofList]
  exact .record (by simp [plain, Level.signAside_levels, BookMetrics.signAside, SignAside.refl])

/-! ## Books -/

/-- **A published state survives as text.** If a book has a state at some depth, its text is read
back, and what is read is the state itself but for the signs of zeros: the same strings and counts,
the same levels in the same order, and decimals of the same value and scale. The text of what was
read is the text that was published, but for these signs. A machine counts the levels of a side in
64 bits, which is all that the bounds say. -/
theorem state_survives (b : Book) (depth : Nat) (s : BookState) (hs : b.state depth = .ok s)
    (hbids : b.bids.length < UInt64.size) (hasks : b.asks.length < UInt64.size) :
    BookState.read s.toText = .ok s.plain ∧ s.Same s.plain ∧
      SignAside s.toText.toList s.plain.toText.toList := by
  have hcount : s.metrics.Countable := by
    obtain ⟨metrics, hmetrics, hstate⟩ := bind_eq_ok hs
    obtain ⟨hbidLevels, haskLevels⟩ := Book.metrics_levels hmetrics
    rw [← Except.ok.inj hstate]
    exact ⟨hbidLevels ▸ hbids, haskLevels ▸ hasks⟩
  exact ⟨BookState.read_toText hcount, s.same_plain, s.signAside⟩

/-- A book with a negative zero among its prices, of a pair whose name is written with escapes. -/
theorem state_survives_negativeZero :
    let b := (Book.empty "B\"\n€").applySnapshot
      [⟨{ negative := true, magnitude := 0, scale := 1 }, .ofNat 2, 7⟩]
      [⟨{ magnitude := 150, scale := 2 }, .ofNat 1, 7⟩] 18446744073709551615
    let s : BookState :=
      { pair := "B\"\n€"
        snapshotId := 18446744073709551615
        lastUpdateId := 18446744073709551615
        bids := [⟨{ negative := true, magnitude := 0, scale := 1 }, .ofNat 2⟩]
        asks := [⟨{ magnitude := 150, scale := 2 }, .ofNat 1⟩]
        metrics :=
          { midPrice := some { magnitude := 75, scale := 2 }
            spreadBps := some (.ofNat 20000)
            imbalance := some { magnitude := 3333333333333333333333333333, scale := 28 }
            lastTradePrice := none
            bidDepth := .ofNat 2
            askDepth := .ofNat 1
            bidLevels := 1
            askLevels := 1 } }
    b.state 5 = .ok s ∧ BookState.read s.toText = .ok s.plain ∧ s.plain ≠ s ∧ s.Same s.plain ∧
      SignAside s.toText.toList s.plain.toText.toList := by
  intro b s
  have hstate : b.state 5 = .ok s := by decide +kernel
  obtain ⟨hread, hsame, htext⟩ :=
    state_survives b 5 s hstate (by decide +kernel) (by decide +kernel)
  exact ⟨hstate, hread, by decide +kernel, hsame, htext⟩

end BookFeed
