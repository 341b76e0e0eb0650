import MqttWasi.Library.Answering
import MqttWasi.Driver.Theorems.Ledger

-- The frames that ask for an acknowledgement, and the acknowledgements.

namespace MqttWasi

namespace OutboundFrame

variable {K : AckClass → Bool}

-- Whether the frame asks for an acknowledgement of one of the classes `K`.
def asks (K : AckClass → Bool) (frame : OutboundFrame) : Bool :=
  (expectedAck frame.bytes).any (K ·.1)

def askedId (frame : OutboundFrame) : Option UInt16 :=
  (expectedAck frame.bytes).map (·.2)

-- Whether an acknowledgement is the one that the frame asks for.
def answeredBy (ack : AckClass × UInt16) (frame : OutboundFrame) : Bool :=
  expectedAck frame.bytes = some ack

theorem asks_eq (K : AckClass → Bool) {frame : OutboundFrame}
    (h : expectedAck frame.bytes = some (k, packetId)) : frame.asks K = K k := by
  rw [asks, h]
  rfl

theorem asks_of_none {frame : OutboundFrame} (h : expectedAck frame.bytes = none) :
    frame.asks K = false := by
  rw [asks, h]
  rfl

theorem askedId_eq {frame : OutboundFrame} (h : expectedAck frame.bytes = some (k, packetId)) :
    frame.askedId = some packetId := by
  rw [askedId, h]
  rfl

theorem exists_of_asks {frame : OutboundFrame} (h : frame.asks K = true) :
    ∃ k packetId, expectedAck frame.bytes = some (k, packetId) ∧ K k = true := by
  cases he : expectedAck frame.bytes
  case none => rw [asks_of_none he] at h; cases h
  case some ack => exact ⟨ack.1, ack.2, rfl, by rw [← asks_eq K he]; exact h⟩

theorem expectedAck_of_askedId {frame : OutboundFrame} (h : frame.askedId = some packetId) :
    ∃ k, expectedAck frame.bytes = some (k, packetId) := by
  have ⟨ack, he, hi⟩ := Option.map_eq_some_iff.mp h
  exact ⟨ack.1, by rw [he, ← hi]⟩

end OutboundFrame

namespace PendingAckKind

-- Whether the operation is waiting for an acknowledgement of class `k`, and counts as such.
def Expects (kind : PendingAckKind) (k : AckClass) : Prop :=
  kind.ackClass = k ∧ (k = .publish → kind.isQos1Publish = true)

theorem Expects.bury (h : Expects kind k) : Expects kind.bury k := by
  have ⟨hk, hq⟩ := h
  refine ⟨hk, fun hp => ?_⟩
  rw [PendingAckKind.bury, hk, hq hp, hp]
  rfl

end PendingAckKind

namespace MqttConnection

open Answering (Matched)
open Relation (ReflTransGen)

variable {K : AckClass → Bool}

-- The frames of the classes `K` that have been written, and those that are still queued.

def sent (K : AckClass → Bool) (c : MqttConnection) : List OutboundFrame :=
  (c.written.map (·.unstarted)).filter (·.asks K)

def queued (K : AckClass → Bool) (c : MqttConnection) : List OutboundFrame :=
  (c.outbound.map (·.unstarted)).filter (·.asks K)

-- The acknowledgements of the classes `K` that have been dispatched.
def acks (K : AckClass → Bool) (c : MqttConnection) : List (AckClass × UInt16) :=
  (c.dispatched.filterMap (·.acknowledges)).filter (K ·.1)

-- The frames that have been written and not been acknowledged.
def unanswered (K : AckClass → Bool) (c : MqttConnection) : List OutboundFrame :=
  Answering.unanswered OutboundFrame.answeredBy (c.sent K) (c.acks K)

-- The frames that are queued or written and not acknowledged.
def inFlight (K : AckClass → Bool) (c : MqttConnection) : List OutboundFrame :=
  c.unanswered K ++ c.queued K

-- The driver knows of a frame that asks for an acknowledgement. What it takes to have been a request
-- may have become something else, but not something that it does not wait for.
def Held (c : MqttConnection) (k : AckClass) (packetId : UInt16) (origin : Origin) : Prop :=
  ∃ entry, c.pendingAcks.lookup packetId = some entry ∧ entry.origin = origin ∧
    (entry.kind.Expects k ∨ entry.kind = .tombstone .publish true)

-- The request that a frame belongs to which has not been started.
def Requested (c : MqttConnection) (frame : OutboundFrame) : Prop :=
  ∀ correlationData, frame.requestCorrelation = some correlationData →
    ∃ pending, c.pendingRequests.lookup correlationData = some pending ∧
      pending.published = true ∧
        expectedAck frame.bytes = pending.publishPacketId.map (.publish, ·)

structure Orderly (K : AckClass → Bool) (c : MqttConnection) : Prop where
  matched : Matched OutboundFrame.answeredBy (c.sent K) (c.acks K)
  held : ∀ frame ∈ c.inFlight K, ∀ k packetId, expectedAck frame.bytes = some (k, packetId) →
    c.Held k packetId frame.origin
  nodup : ((c.inFlight K).filterMap (·.askedId)).Nodup
  requested : ∀ frame ∈ c.outbound, frame.offset = 0 → c.Requested frame
  max_lt : c.peerMaxPacketSize < 2 ^ 32

variable {c c' : MqttConnection}

theorem asks_of_mem_inFlight (h : frame ∈ c.inFlight K) : frame.asks K = true := by
  rcases List.mem_append.mp h with h | h
  case inl => exact (List.mem_filter.mp (Answering.unanswered_sublist.subset h)).right
  case inr => exact (List.mem_filter.mp h).right

theorem Held.mem (h : c.Held k packetId origin) : packetId ∈ c.pendingAcks := by
  have ⟨entry, hl, _⟩ := h
  exact AList.lookup_isSome.mp (by rw [hl]; rfl)

-- A packet identifier that is free is not in flight.
theorem Orderly.free (h : c.Orderly K) (hf : packetId ∉ c.pendingAcks) :
    packetId ∉ (c.inFlight K).filterMap (·.askedId) := by
  intro hm
  have ⟨frame, hm, hi⟩ := List.mem_filterMap.mp hm
  have ⟨k, he⟩ := OutboundFrame.expectedAck_of_askedId hi
  exact hf (h.held frame hm k packetId he).mem

-- What the frames in flight depend on.
def traffic (c : MqttConnection) : List OutboundFrame × List OutboundFrame × List Packet × Nat :=
  (c.written, c.outbound, c.dispatched, c.peerMaxPacketSize)

theorem inFlight_congr (h : c'.traffic = c.traffic) :
    c'.sent K = c.sent K ∧ c'.acks K = c.acks K ∧ c'.inFlight K = c.inFlight K := by
  simp only [traffic, Prod.mk.injEq] at h
  have ⟨hw, ho, hd, _⟩ := h
  simp only [inFlight, unanswered, sent, acks, queued, hw, ho, hd, and_self]

-- Only the entries and the requests are changed.
theorem Orderly.update (h : c.Orderly K) (ht : c'.traffic = c.traffic)
    (hh : ∀ frame ∈ c.inFlight K, ∀ k packetId, expectedAck frame.bytes = some (k, packetId) →
      c.Held k packetId frame.origin → c'.Held k packetId frame.origin)
    (hr : ∀ frame ∈ c.outbound, frame.offset = 0 → c.Requested frame → c'.Requested frame) :
    c'.Orderly K := by
  have ⟨hs, ha, hi⟩ := inFlight_congr (K := K) ht
  simp only [traffic, Prod.mk.injEq] at ht
  have ⟨_, ho, _, hm⟩ := ht
  refine ⟨?_, ?_, ?_, ?_, ?_⟩
  case refine_1 => rw [hs, ha]; exact h.matched
  case refine_2 =>
    rw [hi]
    exact fun frame hm k packetId he => hh frame hm k packetId he (h.held frame hm k packetId he)
  case refine_3 => rw [hi]; exact h.nodup
  case refine_4 =>
    rw [ho]
    exact fun frame hm hz => hr frame hm hz (h.requested frame hm hz)
  case refine_5 => rw [hm]; exact h.max_lt

theorem Held.congr (h : c.Held k packetId origin)
    (hl : c'.pendingAcks.lookup packetId = c.pendingAcks.lookup packetId) :
    c'.Held k packetId origin := by
  rw [Held, hl]
  exact h

theorem Held.fade (h : c.Held k packetId origin) (hf : Fades p c.pendingAcks c'.pendingAcks) :
    c'.Held k packetId origin := by
  rcases hf packetId with hl | ⟨pending, hl, _, hl'⟩
  case inl => exact h.congr hl
  case inr =>
    obtain ⟨entry, he, ho, hk⟩ := h
    rw [he] at hl
    cases hl
    refine ⟨pending.bury, hl', ho, ?_⟩
    rcases hk with hk | hk
    case inl => exact .inl hk.bury
    case inr =>
      refine .inr ?_
      change pending.kind.bury = _
      rw [hk]
      rfl

theorem Orderly.fade (h : c.Orderly K) (ht : c'.traffic = c.traffic)
    (hf : Fades p c.pendingAcks c'.pendingAcks) (hr : c'.pendingRequests = c.pendingRequests) :
    c'.Orderly K :=
  h.update ht (fun _ _ _ _ _ hh => hh.fade hf) fun _ _ _ hq => by rw [Requested, hr]; exact hq

theorem Orderly.same (h : c.Orderly K) (ht : c'.traffic = c.traffic)
    (hp : c'.pendingAcks = c.pendingAcks) (hr : c'.pendingRequests = c.pendingRequests) :
    c'.Orderly K :=
  h.update ht (fun _ _ _ _ _ hh => hh.congr (by rw [hp])) fun _ _ _ hq => by
    rw [Requested, hr]; exact hq

theorem Orderly.await (h : c.Orderly K) (hf : packetId ∉ c.pendingAcks) (entry) :
    (c.await packetId entry).Orderly K := by
  refine h.update rfl (fun frame _ k packetId' _ hh => hh.congr ?_) fun _ _ _ hq => hq
  refine AList.lookup_insert_ne fun he => ?_
  exact hf (he ▸ hh.mem)

-- An entry that is made holds a frame that asks for it.
theorem Held.await (packetId) (hk : entry.kind.Expects k) (ho : entry.origin = origin) :
    (c.await packetId entry).Held k packetId origin :=
  ⟨entry, AList.lookup_insert _, ho, .inl hk⟩

theorem Orderly.mark (h : c.Orderly K) (hl : c.pendingRequests.lookup correlationData = some pending)
    (hu : pending.published = false) (packetId) :
    (c.markPublished correlationData packetId).Orderly K := by
  refine h.update rfl (fun _ _ _ _ _ hh => hh) fun frame _ _ hq correlationData' hc => ?_
  have ⟨pending', hl', hp, he⟩ := hq correlationData' hc
  have hn : correlationData' ≠ correlationData := by
    intro heq
    rw [heq, hl] at hl'
    cases hl'
    rw [hu] at hp
    cases hp
  exact ⟨pending', (AList.lookup_adjust_ne hn _ _).trans hl', hp, he⟩

theorem Orderly.register (h : c.Orderly K) (hn : correlationData ∉ c.pendingRequests) (pending) :
    (c.admitted correlationData pending).Orderly K := by
  refine h.update rfl (fun _ _ _ _ _ hh => hh) fun frame _ _ hq correlationData' hc => ?_
  have ⟨pending', hl', hp, he⟩ := hq correlationData' hc
  have hne : correlationData' ≠ correlationData := by
    intro heq
    exact hn (heq ▸ AList.lookup_isSome.mp (by rw [hl']; rfl))
  exact ⟨pending', (AList.lookup_insert_ne hne).trans hl', hp, he⟩

theorem Orderly.reorder (h : c.Orderly K) (correlationData) :
    MqttConnection.Orderly K
      { c with pendingRequests := c.pendingRequests.adjust correlationData id } := by
  refine h.update rfl (fun _ _ _ _ _ hh => hh) fun frame _ _ hq correlationData' hc => ?_
  have ⟨pending, hl, hp, he⟩ := hq correlationData' hc
  refine ⟨pending, ?_, hp, he⟩
  by_cases hn : correlationData' = correlationData
  case pos =>
    subst hn
    rw [AList.lookup_adjust, hl]
    rfl
  case neg => exact (AList.lookup_adjust_ne hn _ _).trans hl

-- A frame is queued.

theorem queued_push (frame) : (c.push frame).queued K =
    c.queued K ++ if frame.asks K then [frame.unstarted] else [] := by
  have hu : frame.unstarted.asks K = frame.asks K := rfl
  simp only [queued, MqttConnection.push, List.map_append, List.map_cons, List.map_nil,
    List.filter_append, List.filter_cons, List.filter_nil, hu]

theorem inFlight_push (frame) : (c.push frame).inFlight K =
    c.inFlight K ++ if frame.asks K then [frame.unstarted] else [] := by
  have hu : (c.push frame).unanswered K = c.unanswered K := rfl
  rw [inFlight, hu, queued_push, inFlight, List.append_assoc]

theorem Orderly.push (h : c.Orderly K) (frame) (hr : c.Requested frame)
    (hh : ∀ k packetId, expectedAck frame.bytes = some (k, packetId) →
      c.Held k packetId frame.origin ∧ packetId ∉ (c.inFlight K).filterMap (·.askedId)) :
    (c.push frame).Orderly K := by
  refine ⟨h.matched, ?_, ?_, ?_, h.max_lt⟩
  case refine_1 =>
    rw [inFlight_push]
    intro frame' hm k packetId he
    rcases List.mem_append.mp hm with hm | hm
    case inl => exact h.held frame' hm k packetId he
    case inr =>
      split at hm
      case isTrue =>
        cases List.mem_singleton.mp hm
        exact (hh k packetId he).left
      case isFalse => cases hm
  case refine_2 =>
    rw [inFlight_push, List.filterMap_append]
    split
    case isTrue ha =>
      have ⟨k, packetId, he, _⟩ := OutboundFrame.exists_of_asks ha
      have hi : frame.unstarted.askedId = some packetId := OutboundFrame.askedId_eq he
      rw [List.filterMap_cons_some hi, List.filterMap_nil, ← List.concat_eq_append,
        List.nodup_concat]
      exact ⟨(hh k packetId he).right, h.nodup⟩
    case isFalse => rw [List.filterMap_nil, List.append_nil]; exact h.nodup
  case refine_3 =>
    intro frame' hm hz
    rcases List.mem_append.mp hm with hm | hm
    case inl => exact h.requested frame' hm hz
    case inr => rw [List.mem_singleton.mp hm]; exact hr

theorem Orderly.plain (h : c.Orderly K) (frame) (hr : frame.requestCorrelation = none)
    (hn : expectedAck frame.bytes = none) : (c.push frame).Orderly K := by
  refine h.push frame (fun _ hc => ?_) fun _ _ he => ?_
  case refine_1 => rw [hr] at hc; cases hc
  case refine_2 => rw [hn] at he; cases he

-- An entry is made and the frame that asks for it is queued.
theorem Orderly.issue (h : c.Orderly K) (hf : packetId ∉ c.pendingAcks) (frame)
    (ha : expectedAck frame.bytes = some (k, packetId)) (hk : entry.kind.Expects k)
    (ho : entry.origin = frame.origin) (hr : frame.requestCorrelation = none) :
    ((c.await packetId entry).push frame).Orderly K := by
  refine (h.await hf entry).push frame (fun _ hc => ?_) fun k' packetId' he => ?_
  case refine_1 => rw [hr] at hc; cases hc
  case refine_2 =>
    rw [ha] at he
    cases he
    exact ⟨.await packetId hk ho, h.free hf⟩

theorem Orderly.asks {ack : Option (AckClass × UInt16)} (h : c.Orderly K)
    (hf : c.Fits bytes t ack) : expectedAck bytes = ack :=
  (hf.asks (Nat.lt_of_le_of_lt hf.le_max h.max_lt)).asks

theorem Carries.expects (h : c.Carries packetId kind bytes) : kind.Expects kind.ackClass := by
  cases h
  case publish => exact ⟨rfl, fun _ => rfl⟩
  case subscribe => exact ⟨rfl, nofun⟩
  case unsubscribe => exact ⟨rfl, nofun⟩

theorem Orderly.publish (h : c.Orderly K)
    (hp : c.Publishes correlationData pending packetId entry bytes) :
    (((c.await packetId entry).push (pending.frame correlationData bytes)).markPublished
      correlationData (some packetId)).Orderly K := by
  have ha := h.asks hp.fits
  have hm := (h.await hp.free.fresh entry).mark hp.lookup hp.unpublished (some packetId)
  refine hm.push (pending.frame correlationData bytes) ?_ fun k packetId' he => ?_
  case refine_1 =>
    intro correlationData' hc
    cases hc
    refine ⟨{ pending with published := true, publishPacketId := some packetId }, ?_, rfl, ha⟩
    exact (AList.lookup_adjust _ _ _).trans (Option.map_eq_some_iff.mpr ⟨pending, hp.lookup, rfl⟩)
  case refine_2 =>
    rw [show expectedAck (pending.frame correlationData bytes).bytes = _ from ha] at he
    cases he
    have hk : entry.kind.Expects .publish := by rw [hp.kind]; exact ⟨rfl, fun _ => rfl⟩
    exact ⟨(Held.await packetId hk hp.origin).congr rfl, h.free hp.free.fresh⟩

theorem Orderly.publishQos0 (h : c.Orderly K)
    (hp : c.PublishesQos0 correlationData pending bytes) :
    ((c.push (pending.frame correlationData bytes)).markPublished correlationData none).Orderly K := by
  have ha := h.asks hp.fits
  refine (h.mark hp.lookup hp.unpublished none).push (pending.frame correlationData bytes) ?_ ?_
  case refine_1 =>
    intro correlationData' hc
    cases hc
    refine ⟨{ pending with published := true, publishPacketId := none }, ?_, rfl, ha⟩
    exact (AList.lookup_adjust _ _ _).trans (Option.map_eq_some_iff.mpr ⟨pending, hp.lookup, rfl⟩)
  case refine_2 =>
    intro k packetId' he
    rw [show expectedAck (pending.frame correlationData bytes).bytes = _ from ha] at he
    cases he

-- A frame leaves the queue, for the transport or for good.

-- What is written stays in flight.
theorem Write.inFlight (h : Write frame rest c c') (ho : c.outbound = frame :: rest)
    (hm : Matched OutboundFrame.answeredBy (c.sent K) (c.acks K)) :
    Matched OutboundFrame.answeredBy (c'.sent K) (c'.acks K) ∧ c'.inFlight K = c.inFlight K := by
  have hq : c.queued K = (if frame.asks K then [frame.unstarted] else []) ++
      (rest.map (·.unstarted)).filter (·.asks K) := by
    rw [queued, ho, List.map_cons, List.filter_cons]
    change (if frame.asks K then _ else _) = _
    split <;> rfl
  cases h
  case none => exact ⟨hm, rfl⟩
  case part => exact ⟨hm, by simp only [MqttConnection.inFlight, queued, ho]; rfl⟩
  case whole n lastWriteAt clock _ _ =>
    generalize he : MqttConnection.mk .. = c'
    have hs : c'.sent K = c.sent K ++ if frame.asks K then [frame.unstarted] else [] := by
      subst he
      simp only [sent, List.map_append, List.filter_append, List.map_cons, List.map_nil,
        List.filter_cons, List.filter_nil]
      rfl
    have hl : c'.queued K = (rest.map (·.unstarted)).filter (·.asks K) := by subst he; rfl
    have ha : c'.acks K = c.acks K := by subst he; rfl
    rw [MqttConnection.inFlight, MqttConnection.inFlight, unanswered, unanswered, hs, ha, hl, hq,
      hm, List.append_assoc]
    exact ⟨hm.append _, rfl⟩

theorem Write.requested (h : Write frame rest c c') (ho : c.outbound = frame :: rest) :
    c'.pendingRequests = c.pendingRequests ∧
      ∀ frame' ∈ c'.outbound, frame'.offset = 0 → frame' ∈ c.outbound := by
  rw [ho]
  cases h
  case none => exact ⟨rfl, fun frame' hm _ => by rw [← ho]; exact hm⟩
  case part =>
    refine ⟨rfl, fun frame' hm hz => ?_⟩
    rcases List.mem_cons.mp hm with rfl | hm
    case inl => exact absurd hz (by simp; omega)
    case inr => exact List.mem_cons_of_mem _ hm
  case whole => exact ⟨rfl, fun _ hm _ => List.mem_cons_of_mem _ hm⟩

theorem Write.pendingAcks (h : Write frame rest c c') : c'.pendingAcks = c.pendingAcks := by
  cases h <;> rfl

theorem Orderly.write (h : c.Orderly K) (ho : c.outbound = frame :: rest)
    (hw : Write frame rest c c') : c'.Orderly K := by
  have ⟨hm, hi⟩ := hw.inFlight ho h.matched
  have ⟨hr, hs⟩ := hw.requested ho
  have hl : c'.peerMaxPacketSize = c.peerMaxPacketSize := congrArg (·.1.1) hw.aside
  refine ⟨hm, ?_, ?_, ?_, ?_⟩
  case refine_1 =>
    rw [hi]
    exact fun frame hm k packetId he => (h.held frame hm k packetId he).congr (by rw [hw.pendingAcks])
  case refine_2 => rw [hi]; exact h.nodup
  case refine_3 =>
    intro frame' hm hz
    rw [Requested, hr]
    exact h.requested frame' (hs frame' hm hz) hz
  case refine_4 => rw [hl]; exact h.max_lt

-- What `remove_request` does to the queue.
def unqueued (c : MqttConnection) (correlationData : Bytes) : MqttConnection :=
  retainFrames correlationData
    { c with
      pendingRequests := c.pendingRequests.erase correlationData
      requestLifecycle := c.requestLifecycle.finish correlationData }

theorem inFlight_unqueued (correlationData) :
    ((c.unqueued correlationData).inFlight K).Sublist (c.inFlight K) :=
  ((List.filter_sublist.map _).filter _).append_left _

theorem Orderly.unqueued (h : c.Orderly K) (correlationData) :
    (c.unqueued correlationData).Orderly K := by
  have hs := inFlight_unqueued (K := K) (c := c) correlationData
  refine ⟨h.matched, fun frame hm => h.held frame (hs.subset hm), (hs.filterMap _).nodup h.nodup, ?_,
    h.max_lt⟩
  intro frame hm hz correlationData' hc
  have ⟨hm, hu⟩ := List.mem_filter.mp hm
  have ⟨pending, hl, hp⟩ := h.requested frame hm hz correlationData' hc
  have hn : correlationData' ≠ correlationData := by
    intro he
    rw [he] at hc
    simp [isUnsentFrameOf, hz, hc] at hu
  exact ⟨pending, (AList.lookup_erase_ne hn).trans hl, hp⟩

-- The packet identifier of a frame that is taken out of the queue is not in flight any more.
theorem notMem_filterMap_of_nodup {l : List α} {l' : List β} {u : α → Bool} {g : α → Option β}
    (h : (l' ++ l.filterMap g).Nodup) (hm : a ∈ l) (hu : u a = true) (hg : g a = some b) :
    b ∉ l' ++ (l.filter (!u ·)).filterMap g := by
  have hp : ((l.filter u).filterMap g ++ (l' ++ (l.filter (!u ·)).filterMap g)).Perm
      (l' ++ l.filterMap g) := by
    refine (List.perm_append_comm_assoc _ _ _).trans (.append_left l' ?_)
    rw [← List.filterMap_append]
    exact (List.filter_append_perm u l).filterMap g
  have hn := (List.nodup_append.mp (hp.nodup_iff.mpr h)).right.right
  have hb : b ∈ (l.filter u).filterMap g :=
    List.mem_filterMap.mpr ⟨a, List.mem_filter.mpr ⟨hm, hu⟩, hg⟩
  exact fun hm => hn b hb b hm rfl

theorem askedId_queued (outbound : List OutboundFrame) :
    ((outbound.map (·.unstarted)).filter (·.asks K)).filterMap (·.askedId) =
      outbound.filterMap fun frame => if frame.asks K then frame.askedId else none := by
  rw [List.filterMap_filter, List.filterMap_map]
  rfl

theorem Orderly.withdrawn (h : c.Orderly K) (hK : K .publish = true)
    (hl : c.pendingRequests.lookup correlationData = some pending)
    (hi : pending.publishPacketId = some packetId)
    (hu : c.outbound.any (isUnsentFrameOf correlationData) = true) :
    packetId ∉ ((c.unqueued correlationData).inFlight K).filterMap (·.askedId) := by
  obtain ⟨frame, hm, hu⟩ := List.any_eq_true.mp hu
  obtain ⟨hz, hc⟩ : frame.offset = 0 ∧ frame.requestCorrelation = some correlationData := by
    simpa [isUnsentFrameOf] using hu
  obtain ⟨pending', hl', _, ha⟩ := h.requested frame hm hz correlationData hc
  rw [hl] at hl'
  cases hl'
  rw [hi] at ha
  have hk : (if frame.asks K then frame.askedId else none) = some packetId := by
    rw [OutboundFrame.asks_eq K ha, hK, OutboundFrame.askedId_eq ha]
    rfl
  have hn := h.nodup
  rw [inFlight, List.filterMap_append, queued, askedId_queued] at hn
  rw [inFlight, List.filterMap_append, queued, askedId_queued]
  exact notMem_filterMap_of_nodup hn hm hu hk

theorem Orderly.remove (h : c.Orderly K) (hK : K .publish = true)
    (hl : c.pendingRequests.lookup correlationData = some pending) :
    (c.withoutRequest correlationData pending).Orderly K := by
  have hq := h.unqueued correlationData
  cases hi : pending.publishPacketId
  case none =>
    rw [withoutRequest, hi]
    exact hq
  case some packetId =>
    rw [withoutRequest, hi]
    cases hu : c.outbound.any (isUnsentFrameOf correlationData)
    case false =>
      refine hq.update rfl (fun frame _ k packetId' _ hh => ?_) fun _ _ _ hr => hr
      by_cases he : packetId' = packetId
      case pos =>
        subst he
        obtain ⟨entry, hl, ho, _⟩ := hh
        refine ⟨{ entry with kind := .tombstone .publish true }, ?_, ho, .inr rfl⟩
        exact (AList.lookup_adjust _ _ _).trans (Option.map_eq_some_iff.mpr ⟨entry, hl, rfl⟩)
      case neg => exact hh.congr (AList.lookup_adjust_ne he _ _)
    case true =>
      have hw := h.withdrawn hK hl hi hu
      refine hq.update rfl (fun frame hm k packetId' ha hh => ?_) fun _ _ _ hr => hr
      have hn : packetId' ≠ packetId := by
        intro he
        rw [he] at ha
        exact hw (List.mem_filterMap.mpr ⟨frame, hm, OutboundFrame.askedId_eq ha⟩)
      exact hh.congr (AList.lookup_erase_ne hn)

theorem Orderly.step (h : c.Orderly K) (hK : K .publish = true) (hs : Ledger c c') :
    c'.Orderly K := by
  cases hs
  case other => exact h.same rfl rfl rfl
  case fade hf => exact h.fade rfl hf rfl
  case forget _ hl =>
    exact h.fade rfl (Fades.adjust_bury (p := fun _ => True) hl True.intro) rfl
  case reorder correlationData => exact h.reorder correlationData
  case register pending _ _ hn => exact h.register hn pending
  case remove hl => exact h.remove hK hl
  case publish hp => exact h.publish hp
  case publishQos0 hp => exact h.publishQos0 hp
  case await ha => exact h.issue ha.free.fresh _ (h.asks ha.fits) ha.carries.expects ha.origin rfl
  case subscribe packetId entry responseTopic bytes hs =>
    have hk : entry.kind.Expects .subscribe := by rw [hs.kind]; exact ⟨rfl, nofun⟩
    exact (h.issue hs.free.fresh (subscriptionFrame responseTopic bytes) (h.asks hs.fits) hk
      hs.origin rfl).same rfl rfl rfl
  case plain frame hr _ hf => exact h.plain frame hr (h.asks hf)
  case write ho hw => exact h.write ho hw

-- A packet arrives.

theorem acks_arrived (packet reader) : (c.arrived reader packet).acks K =
    c.acks K ++ packet.acknowledges.toList.filter (K ·.1) := by
  have hp : [packet].filterMap (·.acknowledges) = packet.acknowledges.toList := by
    cases h : packet.acknowledges <;> simp [h]
  rw [acks, arrived, List.filterMap_append, List.filter_append, hp]
  rfl

theorem inFlight_arrived_sublist (packet reader) :
    ((c.arrived reader packet).inFlight K).Sublist (c.inFlight K) := by
  refine .append_right ?_ _
  rw [unanswered, acks_arrived]
  exact Answering.unanswered_append_sublist _

-- It is not one of the acknowledgements that matter.
theorem Orderly.arrived (h : c.Orderly K)
    (hn : packet.acknowledges.toList.filter (K ·.1) = []) (reader) :
    (c.arrived reader packet).Orderly K := by
  have ha : (c.arrived reader packet).acks K = c.acks K := by
    rw [acks_arrived, hn, List.append_nil]
  have hi : (c.arrived reader packet).inFlight K = c.inFlight K := by
    rw [inFlight, unanswered, ha]
    rfl
  refine ⟨?_, ?_, ?_, h.requested, h.max_lt⟩
  case refine_1 => rw [ha]; exact h.matched
  case refine_2 => rw [hi]; exact h.held
  case refine_3 => rw [hi]; exact h.nodup

-- The broker acknowledges what it has received, and only once.
def Answers (c : MqttConnection) (K : AckClass → Bool) (packet : Packet) : Prop :=
  ∀ ack ∈ packet.acknowledges, K ack.1 = true →
    ∃ frame ∈ c.unanswered K, expectedAck frame.bytes = some ack

instance : Decidable (c.Answers K packet) :=
  inferInstanceAs (Decidable (∀ ack ∈ packet.acknowledges, K ack.1 = true →
    ∃ frame ∈ c.unanswered K, expectedAck frame.bytes = some ack))

theorem acks_answered (ha : packet.acknowledges = some (k, packetId)) (hk : K k = true) (reader) :
    (c.arrived reader packet).acks K = c.acks K ++ [(k, packetId)] := by
  rw [acks_arrived, ha]
  simp [hk]

-- The acknowledgements of SUBSCRIBE and UNSUBSCRIBE.
def subscribes (k : AckClass) : Bool :=
  k ≠ .publish

-- These are acknowledged in the order in which they were sent.
def AnswersNext (c : MqttConnection) (packet : Packet) : Prop :=
  ∀ ack ∈ packet.acknowledges, subscribes ack.1 = true →
    ∃ frame ∈ (c.unanswered subscribes).head?, expectedAck frame.bytes = some ack

instance : Decidable (c.AnswersNext packet) :=
  inferInstanceAs (Decidable (∀ ack ∈ packet.acknowledges, subscribes ack.1 = true →
    ∃ frame ∈ (c.unanswered subscribes).head?, expectedAck frame.bytes = some ack))

-- The frame that has been acknowledged is not in flight any more.
theorem inFlight_arrived (ha : packet.acknowledges = some (k, packetId)) (hk : K k = true) (reader) :
    (c.arrived reader packet).inFlight K =
      (c.unanswered K).eraseP (OutboundFrame.answeredBy (k, packetId)) ++ c.queued K := by
  rw [inFlight, unanswered, acks_answered ha hk, Answering.unanswered_concat]
  rfl

theorem Orderly.answered (h : c.Orderly K) (ha : packet.acknowledges = some (k, packetId))
    (hk : K k = true) (hb : c.Answers K packet) (reader) :
    (c.arrived reader packet).Orderly K ∧
      packetId ∉ ((c.arrived reader packet).inFlight K).filterMap (·.askedId) := by
  have ⟨frame, hm, he⟩ := hb (k, packetId) ha hk
  have hf : OutboundFrame.answeredBy (k, packetId) frame = true := decide_eq_true he
  have ⟨frame', l, l', _, hf', hl, hl'⟩ := List.exists_of_eraseP hm hf
  have he' : frame'.askedId = some packetId := OutboundFrame.askedId_eq (of_decide_eq_true hf')
  have hi := inFlight_arrived (c := c) ha hk reader
  have hs := inFlight_arrived_sublist (K := K) (c := c) packet reader
  have hn := h.nodup
  rw [inFlight, hl, List.append_assoc, List.cons_append] at hn
  have hn := (List.perm_middle.filterMap OutboundFrame.askedId).nodup_iff.mp hn
  rw [List.filterMap_cons_some he', List.nodup_cons] at hn
  refine ⟨⟨?_, ?_, (hs.filterMap _).nodup h.nodup, h.requested, h.max_lt⟩, ?_⟩
  case refine_1 =>
    rw [acks_answered ha hk]
    exact h.matched.answer hm hf
  case refine_2 => exact fun frame hm => h.held frame (hs.subset hm)
  case refine_3 =>
    rw [hi, hl', List.append_assoc]
    exact hn.left

theorem Orderly.erase (h : c.Orderly K)
    (hn : packetId ∉ (c.inFlight K).filterMap (·.askedId)) (ht : c'.traffic = c.traffic)
    (hp : c'.pendingAcks = c.pendingAcks.erase packetId)
    (hr : c'.pendingRequests = c.pendingRequests) : c'.Orderly K := by
  refine h.update ht (fun frame hm k packetId' ha hh => ?_) fun _ _ _ hq => by
    rw [Requested, hr]; exact hq
  have hne : packetId' ≠ packetId := by
    intro he
    rw [he] at ha
    exact hn (List.mem_filterMap.mpr ⟨frame, hm, OutboundFrame.askedId_eq ha⟩)
  exact hh.congr (by rw [hp]; exact AList.lookup_erase_ne hne)

theorem Orderly.receipt (h : c.Orderly K) (hK : K .publish = true)
    (ha : packet.acknowledges = some (k, packetId)) (hb : c.Answers K packet)
    (hr : Receipt packet k packetId (c.arrived reader packet) c') : c'.Orderly K := by
  have ha' : (c.arrived reader packet).Orderly K ∧ (∀ pending,
      c.pendingAcks.lookup packetId = some pending → pending.kind.ackClass = k →
      packetId ∉ ((c.arrived reader packet).inFlight K).filterMap (·.askedId)) := by
    by_cases hk : K k = true
    case pos =>
      have ⟨h, hn⟩ := h.answered ha hk hb reader
      exact ⟨h, fun _ _ _ => hn⟩
    case neg =>
      have h : (c.arrived reader packet).Orderly K := h.arrived (by simp [ha, hk]) reader
      refine ⟨h, fun pending hl hc hm => ?_⟩
      -- A frame of the classes `K` with this identifier would be held by an entry of its class.
      have ⟨frame, hm, hi⟩ := List.mem_filterMap.mp hm
      have ⟨k', packetId', he, hk'⟩ := OutboundFrame.exists_of_asks (asks_of_mem_inFlight hm)
      rw [OutboundFrame.askedId_eq he, Option.some.injEq] at hi
      have ⟨entry, hl', _, hx⟩ := h.held frame hm k' packetId' he
      rw [hi, show (c.arrived reader packet).pendingAcks.lookup packetId = _ from hl] at hl'
      cases hl'
      rcases hx with hx | hx
      case inl => exact hk (by rw [← hc, hx.left]; exact hk')
      case inr => exact hk (by rw [← hc, hx]; exact hK)
  have ⟨h, hn⟩ := ha'
  cases hr
  case unknown => exact h
  case mismatched => exact h
  case taken pending _ hl hc _ => exact h.erase (hn pending hl hc) rfl rfl rfl

theorem Receipt.inFlight (h : Receipt packet k packetId c c') : c'.inFlight K = c.inFlight K := by
  cases h <;> rfl

theorem Ends.inFlight (h : Ends c c') : (c'.inFlight K).Sublist (c.inFlight K) := by
  have hs : (c.closed.inFlight K).Sublist (c.inFlight K) := (List.nil_sublist _).append_left _
  cases h <;> exact hs

theorem Outside.inFlight (h : Outside c input c') : c'.inFlight K = c.inFlight K := by
  cases h <;> rfl

end MqttConnection

namespace Driver

open MqttConnection

-- The acknowledgements of the classes `K` are all for frames that have been written, one for each.
def AnswersFrames (driver : Driver) (K : AckClass → Bool) (inputs : List Input) : Prop :=
  driver.Throughout inputs fun earlier input =>
    ∀ packet ∈ earlier.dispatches input, earlier.connection.Answers K packet

def AnswersInOrder (driver : Driver) (inputs : List Input) : Prop :=
  driver.Throughout inputs fun earlier input =>
    ∀ packet ∈ earlier.dispatches input, earlier.connection.AnswersNext packet

theorem orderly_start (options connack clock) (K : AckClass → Bool) :
    (start options connack clock).connection.Orderly K :=
  ⟨.nil, nofun, .nil, nofun, (framed_start options connack clock).max_lt⟩

end Driver
end MqttWasi
