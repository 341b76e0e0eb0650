import MqttWasi.Frame.Reader
import MqttWasi.Codec.Theorems.FixedHeader

namespace MqttWasi

variable {max : Nat}

theorem nextPacket_of_header (max : Nat) (h : decodeFixedHeader stream = .ok (header, headerLen)) :
    nextPacket max stream =
      nextPacket.body max stream header headerLen (headerLen + header.remainingLength.toNat) := by
  simp only [nextPacket, h]

theorem nextPacket_of_error (max : Nat) (h : decodeFixedHeader stream = .error e) :
    nextPacket max stream = if e = endOfData then .more else .fail e := by
  simp only [nextPacket, h]
  rfl

-- Both verdicts other than `more` are about bytes that have arrived.
theorem nextPacket_append (h : nextPacket max xs ≠ .more) (ys : Bytes) :
    nextPacket max (xs ++ ys) = nextPacket max xs := by
  cases hd : decodeFixedHeader xs
  case error e =>
    rw [nextPacket_of_error max hd] at h ⊢
    split at h
    case isTrue => contradiction
    case isFalse he =>
      rw [nextPacket_of_error max (decodeFixedHeader.append_error ys hd he), if_neg he]
  case ok r =>
    rw [nextPacket_of_header max hd] at h ⊢
    rw [nextPacket_of_header max (decodeFixedHeader.append_ok ys hd)]
    rw [nextPacket.body] at h ⊢
    rw [nextPacket.body]
    by_cases hm : r.2 + r.1.remainingLength.toNat > max
    case pos => simp only [if_pos hm]
    case neg =>
      have ht : r.2 + r.1.remainingLength.toNat ≤ xs.length := by
        by_contra hl
        simp [if_neg hm, Nat.lt_of_not_le hl] at h
      have hn : ¬(xs ++ ys).length < r.2 + r.1.remainingLength.toNat := by simp; omega
      rw [if_neg (Nat.not_lt.mpr ht), if_neg hn, List.take_append_of_le_length ht]

theorem nextPacket_item (h : nextPacket max xs = .item packet n) :
    ∃ header headerLen, decodeFixedHeader xs = .ok (header, headerLen) ∧
      n = headerLen + header.remainingLength.toNat ∧ n ≤ xs.length := by
  cases hd : decodeFixedHeader xs
  case error e =>
    rw [nextPacket_of_error max hd] at h
    split at h <;> cases h
  case ok r =>
    rw [nextPacket_of_header max hd, nextPacket.body] at h
    split at h <;> try split at h <;> try split at h
    all_goals cases h
    exact ⟨r.1, r.2, rfl, rfl, by omega⟩

def packetFraming (max : Nat) : Framing UInt8 Error Packet where
  next := nextPacket max
  next_nil := rfl
  fail_append ys h := by rw [nextPacket_append (by simp [h]), h]
  item_append ys h := by rw [nextPacket_append (by simp [h]), h]
  item_pos h := by
    have ⟨_, _, hd, hn, _⟩ := nextPacket_item h
    have := decodeFixedHeader.headerLen_pos hd
    omega
  item_le h := by
    have ⟨_, _, _, _, hl⟩ := nextPacket_item h
    exact hl

namespace FrameReader

-- A reader whose buffer has never overflowed and that only remembers what a fresh look at its
-- buffer would tell.
structure Valid (reader : FrameReader) : Prop where
  overflow : reader.overflowSize = none
  body : reader.state = .readingBody header headerLen totalLen →
    decodeFixedHeader reader.buf = .ok (header, headerLen) ∧
      totalLen = headerLen + header.remainingLength.toNat ∧ totalLen ≤ reader.maxPacketSize

theorem Valid.withMaxPacketSize (max : Nat) : (FrameReader.withMaxPacketSize max).Valid where
  overflow := rfl
  body h := by cases h

theorem Valid.push {reader : FrameReader} (h : reader.Valid)
    (hc : data.length ≤ reader.remainingCapacity) :
    (reader.push data).Valid ∧ (reader.push data).buf = reader.buf ++ data ∧
      (reader.push data).maxPacketSize = reader.maxPacketSize := by
  have hp : reader.push data = { reader with buf := reader.buf ++ data } := by
    rw [FrameReader.push, if_neg (by omega)]
  rw [hp]
  refine ⟨⟨h.overflow, fun hs => ?_⟩, rfl, rfl⟩
  have ⟨hd, ht⟩ := h.body hs
  exact ⟨decodeFixedHeader.append_ok data hd, ht⟩

-- A reader that needs more data. It has room for more, as five bytes hold any fixed header.
structure Waits (max : Nat) (reader : FrameReader) : Prop where
  valid : reader.Valid
  max_eq : reader.maxPacketSize = max
  more : nextPacket max reader.buf = .more
  room : 5 ≤ max → 0 < reader.remainingCapacity

theorem Waits.withMaxPacketSize (max : Nat) : Waits max (.withMaxPacketSize max) where
  valid := .withMaxPacketSize max
  max_eq := rfl
  more := rfl
  room h := by simp [remainingCapacity, FrameReader.withMaxPacketSize]; omega

-- What a call of `tryDecode` does with a buffer, in terms of the reference parser.
inductive Answers (max : Nat) (buf : Bytes) : EStateM.Result Error FrameReader (Option Packet) → Prop
  | more {reader} :
    (Waits max reader) → (reader.buf = buf) → Answers max buf (.ok none reader)
  | fail {reader} :
    (nextPacket max buf = .fail e) → Answers max buf (.error e reader)
  | item {reader} :
    (nextPacket max buf = .item packet n) → (reader.Valid) → (reader.buf = buf.drop n) →
    (reader.maxPacketSize = max) → Answers max buf (.ok (some packet) reader)

theorem readBody_answers {reader : FrameReader} (h : reader.Valid)
    (hs : reader.state = .readingBody header headerLen totalLen) :
    Answers reader.maxPacketSize reader.buf (readBody header headerLen totalLen reader) := by
  have ⟨hd, ht, hm⟩ := h.body hs
  subst ht
  have hn := nextPacket_of_header reader.maxPacketSize hd
  rw [nextPacket.body, if_neg (by omega)] at hn
  rw [readBody, EStateM.bind_ok (EStateM.get_apply _)]
  split at hn
  case isTrue hl =>
    rw [if_pos hl]
    exact .more ⟨h, rfl, hn, fun _ => by simp [remainingCapacity, hs]; omega⟩ rfl
  case isFalse hl =>
    rw [if_neg hl]
    split at hn
    case h_1 packet hp =>
      rw [hp, EStateM.bind_ok (check_ok _ _)]
      exact .item hn ⟨h.overflow, fun hs => by cases hs⟩ rfl rfl
    case h_2 e hp =>
      rw [hp, EStateM.bind_error (check_error _ _)]
      exact .fail hn

theorem readHeader_of_error {reader : FrameReader} (hd : decodeFixedHeader reader.buf = .error e) :
    readHeader reader = if e = endOfData then .ok none reader else .error e reader := by
  rw [readHeader, EStateM.bind_ok (EStateM.get_apply _)]
  by_cases hb : reader.buf = []
  case pos =>
    rw [hb, decodeFixedHeader.nil, Except.error.injEq] at hd
    simp [hb, ← hd]
  case neg =>
    simp only [List.isEmpty_iff, hb, if_false, hd, EStateM.ite_apply]
    rfl

theorem readHeader_of_ok {reader : FrameReader}
    (hd : decodeFixedHeader reader.buf = .ok (header, headerLen)) :
    readHeader reader =
      let totalLen := headerLen + header.remainingLength.toNat
      if totalLen > reader.maxPacketSize then
        .error (.packetTooLarge totalLen reader.maxPacketSize) reader
      else
        .ok (some (header, headerLen, totalLen))
          { reader with state := .readingBody header headerLen totalLen } := by
  have hb : reader.buf ≠ [] := by intro hb; rw [hb, decodeFixedHeader.nil] at hd; cases hd
  rw [readHeader, EStateM.bind_ok (EStateM.get_apply _)]
  simp only [List.isEmpty_iff, hb, if_false, hd]
  split <;> rfl

theorem tryDecode_answers {reader : FrameReader} (h : reader.Valid) :
    Answers reader.maxPacketSize reader.buf (tryDecode reader) := by
  rw [tryDecode, EStateM.bind_ok (EStateM.get_apply _), h.overflow]
  dsimp only
  cases hs : reader.state
  case readingBody header headerLen totalLen =>
    exact readBody_answers h hs
  case readingHeader =>
    dsimp only
    cases hd : decodeFixedHeader reader.buf
    case error e =>
      have hn := nextPacket_of_error reader.maxPacketSize hd
      have hr := readHeader_of_error hd
      split at hn <;> rename_i he
      case isTrue =>
        rw [if_pos he] at hr
        have hl := decodeFixedHeader.length_lt_of_endOfData (he ▸ hd)
        rw [EStateM.bind_ok hr]
        exact .more ⟨h, rfl, hn, fun _ => by simp [remainingCapacity, hs]; omega⟩ rfl
      case isFalse =>
        rw [if_neg he] at hr
        rw [EStateM.bind_error hr]
        exact .fail hn
    case ok r =>
      have hr := readHeader_of_ok hd
      dsimp only at hr
      split at hr <;> rename_i hm
      case isTrue =>
        have hn := nextPacket_of_header reader.maxPacketSize hd
        rw [nextPacket.body, if_pos hm] at hn
        rw [EStateM.bind_error hr]
        exact .fail hn
      case isFalse =>
        -- The reader has moved on to the body, which changes nothing that the answer is about.
        have hv : Valid { reader with
            state := .readingBody r.1 r.2 (r.2 + r.1.remainingLength.toNat) } :=
          ⟨h.overflow, fun hs => by cases hs; exact ⟨hd, rfl, Nat.not_lt.mp hm⟩⟩
        rw [EStateM.bind_ok hr]
        exact readBody_answers hv rfl

namespace Run

-- What the caller knows at the end.
def outcome (run : Run) : Framing.Outcome UInt8 Error Packet where
  items := run.packets
  rest := match run.error with
    | some e => .error e
    | none   => .ok run.reader.buf

theorem outcome_rest_ok {run : Run} (h : run.outcome.rest = .ok rest) :
    run.error = none ∧ run.reader.buf = rest := by
  unfold outcome at h
  cases hr : run.error <;> simp [hr] at h
  exact ⟨rfl, h⟩

end Run

open Framing (parse)

theorem drain_go_eq_parse {reader : FrameReader} (h : reader.Valid)
    (hc : reader.buf.length < calls) :
    ∃ run, drain.go calls reader = some run ∧
      run.outcome = parse (packetFraming reader.maxPacketSize) reader.buf ∧
      (run.error = none → Waits reader.maxPacketSize run.reader) := by
  induction calls generalizing reader
  case zero => omega
  case succ calls ih =>
    have ha := tryDecode_answers h
    cases ht : tryDecode reader <;> simp only [drain.go, ht] <;> rw [ht] at ha <;> cases ha
    case error.fail e reader' hn =>
      exact ⟨_, rfl, (Framing.parse_of_fail hn).symm, by simp⟩
    case ok.more reader' hw hb =>
      refine ⟨_, rfl, ?_, fun _ => hw⟩
      rw [← hb, Framing.parse_of_more hw.more]
      rfl
    case ok.item packet n reader' hn hv hb hm =>
      have hl := (packetFraming _).item_le hn
      have hp := (packetFraming _).item_pos hn
      have ⟨run, hg, ho, hr⟩ := ih hv (by simp [hb]; omega)
      simp only [hg, Option.map_some]
      refine ⟨_, rfl, ?_, fun he => hm ▸ hr he⟩
      rw [Framing.parse_of_item hn, ← hb, ← hm, ← ho]
      rfl

theorem drain_eq_parse {reader : FrameReader} (h : reader.Valid) :
    ∃ run, drain reader = some run ∧
      run.outcome = parse (packetFraming reader.maxPacketSize) reader.buf ∧
      (run.error = none → Waits reader.maxPacketSize run.reader) :=
  drain_go_eq_parse h (Nat.lt_succ_self _)

-- The buffer of the reader and the chunks that are still to come are what is left of the stream.
theorem feed_eq_parse {reader : FrameReader} (h : Waits max reader) (hc : Respects reader chunks) :
    ∃ run, feed reader chunks = some run ∧
      run.outcome = parse (packetFraming max) (reader.buf ++ chunks.flatten) ∧
      (run.error = none → Waits max run.reader) := by
  induction chunks generalizing reader
  case nil =>
    have hp := Framing.parse_of_more (F := packetFraming max) h.more
    exact ⟨_, rfl, by simp [hp, Run.outcome], fun _ => h⟩
  case cons chunk chunks ih =>
    obtain ⟨hl, hc⟩ := hc
    obtain ⟨hv, hb, hm⟩ := h.valid.push hl
    obtain ⟨run, hd, ho, hw⟩ := drain_eq_parse hv
    rw [hm, h.max_eq] at ho hw
    rw [feed, hd, Option.bind_some, List.flatten_cons, ← List.append_assoc, Framing.parse_append,
      ← hb, ← ho]
    cases he : run.error
    case some e => exact ⟨run, rfl, by simp [Framing.Outcome.andThen, Run.outcome, he], by simp [he]⟩
    case none =>
      have hrest : run.outcome.rest = .ok run.reader.buf := by simp [Run.outcome, he]
      obtain ⟨rest, hf, ho', hw'⟩ := ih (hw he) (hc run hd he)
      refine ⟨{ rest with packets := run.packets ++ rest.packets }, by simp [hf], ?_, hw'⟩
      simp only [Framing.Outcome.andThen, hrest, ← ho']
      rfl

-- Bytes that arrive one at a time always find room.
theorem respects_singletons {reader : FrameReader} (h : Waits max reader) (hm : 5 ≤ max)
    (stream : Bytes) : Respects reader (stream.map ([·])) := by
  induction stream generalizing reader
  case nil => trivial
  case cons b stream ih =>
    have hl : [b].length ≤ reader.remainingCapacity := h.room hm
    have ⟨hv, _, hmax⟩ := h.valid.push hl
    have ⟨run, hd, _, hw⟩ := drain_eq_parse hv
    rw [hmax, h.max_eq] at hw
    refine ⟨hl, fun run' hd' he => ih ?_⟩
    rw [hd, Option.some.injEq] at hd'
    exact hd' ▸ hw (hd' ▸ he)

end FrameReader
end MqttWasi
