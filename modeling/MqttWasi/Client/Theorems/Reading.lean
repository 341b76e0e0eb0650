import MqttWasi.Client.Theorems.Handshake
import MqttWasi.Client.Theorems.Operations
import MqttWasi.Frame.Theorems.Room

-- Whatever a client does, it never pushes more into its frame reader than there is room for.

namespace MqttWasi

namespace Transport

theorem read_length {transport : Transport} (h : transport.read n = some (.ok bytes, transport')) :
    bytes.length ≤ n := by
  rw [read] at h
  split at h <;> cases h
  exact List.length_take_le ..

end Transport

namespace MqttClient

open EStateM (Leads)
open Relation (ReflTransGen)

-- What happens to the frame reader of a client, and which packets come out of it.
inductive Move (c : MqttClient) : MqttClient → Prop
  | aside : (c'.frameReader = c.frameReader) → (c'.decoded = c.decoded) → Move c c'
  | refuse :
    (FrameReader.tryDecode c.frameReader = .error e reader) → Move c { c with frameReader := reader }
  | wait :
    (FrameReader.tryDecode c.frameReader = .ok none reader) →
    Move c { c with frameReader := reader }
  | item :
    (FrameReader.tryDecode c.frameReader = .ok (some packet) reader) →
    Move c { c with frameReader := reader, decoded := c.decoded ++ [packet] }
  | receive (lastReadAt) :
    (bytes.length ≤ c.frameReader.remainingCapacity) →
    Move c { c with lastReadAt, frameReader := c.frameReader.push bytes }

theorem Move.uses (h : Move c c') :
    ReflTransGen FrameReader.Uses c.frameReader c'.frameReader := by
  have ht : FrameReader.Uses c.frameReader (FrameReader.tryDecode c.frameReader).state := .tryDecode
  cases h
  case aside hf _ => rw [hf]
  case refuse hd => exact .single (by rwa [hd] at ht)
  case wait hd => exact .single (by rwa [hd] at ht)
  case item hd => exact .single (by rwa [hd] at ht)
  case receive hl => exact .single (.push hl)

theorem uses_of_moves (h : ReflTransGen Move c c') :
    ReflTransGen FrameReader.Uses c.frameReader c'.frameReader := by
  induction h
  case refl => rfl
  case tail h ih => exact ih.trans h.uses

-- An action that neither reads nor decodes.
def Rests (x : ClientM α) : Prop :=
  ∀ c, (x c).state.frameReader = c.frameReader ∧ (x c).state.decoded = c.decoded

namespace Rests

theorem pure (a : α) : Rests (pure a) :=
  fun _ => ⟨rfl, rfl⟩

theorem throw (e : Stop) : Rests (throw e : ClientM α) :=
  fun _ => ⟨rfl, rfl⟩

theorem get : Rests (get : ClientM MqttClient) :=
  fun _ => ⟨rfl, rfl⟩

theorem bind {x : ClientM α} {f : α → ClientM β} (hx : Rests x) (hf : ∀ a, Rests (f a)) :
    Rests (x >>= f) := by
  intro c
  have hx := hx c
  cases h : x c <;> rw [h] at hx
  case ok a c' =>
    rw [EStateM.bind_ok h]
    exact ⟨(hf a c').left.trans hx.left, (hf a c').right.trans hx.right⟩
  case error e c' =>
    rw [EStateM.bind_error h]
    exact hx

theorem ite {p : Prop} [Decidable p] {x y : ClientM α} (hx : Rests x) (hy : Rests y) :
    Rests (if p then x else y) := by
  split
  case isTrue => exact hx
  case isFalse => exact hy

theorem modify {f : MqttClient → MqttClient} (hr : ∀ c, (f c).frameReader = c.frameReader)
    (hd : ∀ c, (f c).decoded = c.decoded) : Rests (modify f : ClientM PUnit) :=
  fun c => ⟨hr c, hd c⟩

theorem fail (e : Error) : Rests (fail e : ClientM α) :=
  .throw _

theorem lift (result : Except Error α) : Rests (lift result) := by
  cases result
  case ok a => exact .pure a
  case error e => exact .fail e

theorem failDisconnected (e : Error) : Rests (failDisconnected e : ClientM α) :=
  fun _ => ⟨rfl, rfl⟩

-- After a failure nothing follows.
theorem fail_bind (e : Error) (f : α → ClientM β) : Rests (MqttClient.fail e >>= f) :=
  fun _ => ⟨rfl, rfl⟩

theorem failDisconnected_bind (e : Error) (f : α → ClientM β) :
    Rests (MqttClient.failDisconnected e >>= f) :=
  fun _ => ⟨rfl, rfl⟩

theorem now : Rests now :=
  fun _ => ⟨rfl, rfl⟩

theorem record (action : ClientAction) : Rests (record action) :=
  fun _ => ⟨rfl, rfl⟩

theorem takePacketId : Rests takePacketId :=
  fun _ => ⟨rfl, rfl⟩

theorem popIncoming : Rests popIncoming :=
  fun _ => ⟨rfl, rfl⟩

theorem ensureConnected : Rests ensureConnected :=
  .bind .get fun _ => .ite (.fail _) (.pure _)

theorem onStream (call : Transport → Option (Except IoError α × Transport)) :
    Rests (onStream call) := by
  intro c
  rw [MqttClient.onStream, EStateM.bind_ok (EStateM.get_apply _)]
  cases call c.stream
  case none => exact ⟨rfl, rfl⟩
  case some r => exact ⟨rfl, rfl⟩

theorem sendEncoded (bytes : Bytes) (operation : String) : Rests (sendEncoded bytes operation) := by
  refine .bind .get fun _ => .ite (.fail_bind _ _) (.bind (.record _) fun _ => ?_)
  refine .bind (.onStream _) fun result => ?_
  split
  case h_1 => exact .failDisconnected_bind _ _
  case h_2 =>
    refine .bind (.onStream _) fun result => ?_
    dsimp only
    split
    case h_1 => exact .failDisconnected_bind _ _
    case h_2 => exact .bind .now fun _ => .modify (fun _ => rfl) fun _ => rfl

theorem keepAlive (start : Instant) : Rests (serviceTimers.keepAlive start) := by
  refine .bind .get fun c => .ite (.pure _) ?_
  split
  case h_1 => exact .ite (.failDisconnected _) (.pure _)
  case h_2 =>
    refine .ite (.bind (.sendEncoded _ _) fun _ => .bind .now fun _ => ?_) (.pure _)
    exact .modify (fun _ => rfl) fun _ => rfl
  case h_3 => exact .pure _

theorem serviceTimers (deadline : Option Deadline) : Rests (serviceTimers deadline) := by
  refine .bind .now fun start => ?_
  split
  case h_1 => exact .ite (.fail_bind _ _) (.keepAlive start)
  case h_2 => exact .keepAlive start

theorem nextReadTimeout (deadline : Option Deadline) : Rests (nextReadTimeout deadline) :=
  .bind .now fun _ => .bind .get fun _ => .pure _

theorem deadlineAfter (timeout : Duration) (operation : String) :
    Rests (deadlineAfter timeout operation) := by
  refine .bind .now fun start => .bind .get fun c => ?_
  split
  case h_1 => exact .pure _
  case h_2 => exact .fail _

theorem configure : Rests configure := by
  refine .bind (.onStream _) fun result => ?_
  split
  case h_1 => exact .fail _
  case h_2 => exact .pure _

theorem disconnect : Rests disconnect := by
  refine .bind .get fun _ => .ite (.bind (.lift _) fun _ => .bind (.sendEncoded _ _) fun _ => ?_) ?_
  case refine_1 =>
    refine .bind (.modify (fun _ => rfl) fun _ => rfl) fun _ => .bind (.onStream _) fun result => ?_
    split
    case h_1 => exact .fail _
    case h_2 => exact .pure _
  case refine_2 =>
    refine .bind (.onStream _) fun result => ?_
    split
    case h_1 => exact .fail _
    case h_2 => exact .pure _

theorem negotiate (ack : ConnAckPacket) : Rests (negotiate ack) := by
  refine .bind (.modify (fun _ => rfl) fun _ => rfl) fun _ => ?_
  split
  case h_1 => exact .pure _
  case h_2 => exact .ite (.fail _) (.modify (fun _ => rfl) fun _ => rfl)

end Rests

-- An action that is made of such moves.
def Moves (x : ClientM α) : Prop :=
  ∀ c, Leads Move c x

theorem Rests.moves {x : ClientM α} (h : Rests x) : Moves x :=
  fun c => .single (.aside (h c).left (h c).right)

namespace Moves

theorem bind {x : ClientM α} {f : α → ClientM β} (hx : Moves x) (hf : ∀ a, Moves (f a)) :
    Moves (x >>= f) :=
  fun c => (hx c).bind_any hf

-- At first it neither reads nor decodes.
theorem after {x : ClientM α} {f : α → ClientM β} (hx : Rests x) (hf : ∀ a, Moves (f a)) :
    Moves (x >>= f) :=
  hx.moves.bind hf

end Moves

-- The read asks for at most as many bytes as there is room for.
theorem receive_leads {c : MqttClient} (hn : n ≤ c.frameReader.remainingCapacity)
    {f : Except IoError Bytes → ClientM α} (he : ∀ e, Rests (f (.error e)))
    (hf : ∀ bytes c', bytes.length ≤ c'.frameReader.remainingCapacity → Leads Move c' (f (.ok bytes))) :
    Leads Move c (onStream (·.read n) >>= f) := by
  refine ((Rests.onStream _).moves c).bind fun result c' h => ?_
  cases result
  case error e => exact (he e).moves c'
  case ok bytes =>
    rw [onStream, EStateM.bind_ok (EStateM.get_apply _)] at h
    cases hr : c.stream.read n
    case none =>
      rw [hr] at h
      cases h
    case some r =>
      obtain ⟨result, stream⟩ := r
      rw [hr] at h
      cases h
      exact hf bytes _ ((Transport.read_length hr).trans hn)

theorem Moves.readPacketRound (deadline : Option Deadline) : Moves (readPacketRound deadline) := by
  intro c
  rw [MqttClient.readPacketRound]
  apply Leads.get
  split
  case h_1 hd => exact .bind_any (.set (.refuse hd)) fun _ => (Rests.failDisconnected _).moves
  case h_2 packet reader hd =>
    refine .bind_any (.set (.item hd)) fun _ => Rests.moves ?_
    refine .bind .now fun _ => .bind (.modify (fun _ => rfl) fun _ => rfl) fun _ => ?_
    exact .ite (.bind (.modify (fun _ => rfl) fun _ => rfl) fun _ => .pure _) (.pure _)
  case h_3 hd =>
    refine .bind_any (.set (.wait hd)) fun _ => ?_
    refine Moves.after (.serviceTimers deadline) fun _ => .after (.nextReadTimeout deadline) fun _ => ?_
    refine .after (.onStream _) fun result => ?_
    split
    case h_1 => exact (Rests.failDisconnected_bind _ _).moves
    case h_2 =>
      intro c
      apply Leads.get
      dsimp only
      refine .ite (fun _ => (Rests.failDisconnected_bind _ _).moves c) fun _ => ?_
      refine receive_leads (Nat.min_le_left _ _) (fun e => Rests.ite (.pure _) (.failDisconnected _)) ?_
      intro bytes c' hl
      split
      case h_1 => exact (Rests.failDisconnected _).moves c'
      case h_2 hb =>
        cases hb
        refine .bind (Rests.now.moves c') fun _ _ hn => ?_
        cases hn
        exact .bind_any (.modify (.receive _ hl)) fun _ _ => .pure _
      case h_3 he => cases he

namespace Moves

theorem readPacketUntil (deadline : Option Deadline) : Moves (readPacketUntil deadline) := by
  refine .after .get fun c => ?_
  generalize c.stream.readable + 1 = rounds
  induction rounds
  case zero => exact (Rests.throw _).moves
  case succ rounds ih =>
    refine .bind (.readPacketRound deadline) fun packet => ?_
    cases packet
    case none => exact ih
    case some packet => exact (Rests.pure _).moves

theorem disconnectOn {x : ClientM α} (errors : Error → Bool) (hx : Moves x) :
    Moves (disconnectOn errors x) := by
  intro c
  have h := hx c
  rw [Leads] at h ⊢
  rw [MqttClient.disconnectOn]
  cases hr : x c <;> rw [hr] at h
  case ok => exact h
  case error e c' =>
    cases e
    case blocked => exact h
    case failed e =>
      refine h.tail ?_
      dsimp only [EStateM.Result.state]
      split
      case isTrue => exact .aside rfl rfl
      case isFalse => exact .aside rfl rfl

theorem acceptPublish (packet : PublishPacket) : Moves (acceptPublish packet) := by
  intro c
  rw [MqttClient.acceptPublish]
  apply Leads.get
  refine .ite (fun _ => (Rests.fail_bind _ _).moves c) fun _ => ?_
  refine .bind_any (.set (.aside rfl rfl)) fun _ => Rests.moves (.bind (.record _) fun _ => ?_)
  refine .ite ?_ (.pure _)
  cases packet.packetId
  case none => exact .fail _
  case some packetId => exact .bind (.lift _) fun _ => .sendEncoded _ _

theorem waitForAck {finish : Packet → Option (ClientM Unit)} (name : String)
    (hf : ∀ packet x, finish packet = some x → Moves x) : Moves (waitForAck name finish) := by
  refine .after (.bind .get fun _ => .deadlineAfter _ _) fun deadline => .after .get fun c => ?_
  generalize c.pending + 1 = rounds
  induction rounds
  case zero => exact (Rests.throw _).moves
  case succ rounds ih =>
    refine .bind (.disconnectOn _ (.readPacketUntil _)) fun packet => ?_
    split
    case h_1 hx => exact hf packet _ hx
    case h_2 =>
      split
      case h_1 => exact .bind (.disconnectOn _ (.acceptPublish _)) fun _ => ih
      case h_2 => exact (Rests.failDisconnected _).moves
      case h_3 => exact ih
      case h_4 => exact (Rests.failDisconnected _).moves

theorem waitForPuback (packetId : UInt16) : Moves (waitForPuback packetId) := by
  refine .waitForAck _ fun packet x h => ?_
  split at h
  case h_1 =>
    split at h <;> cases h
    exact (Rests.lift _).moves
  case h_2 => cases h

theorem finishAck (result : Except Error Unit) : Moves (finishAck result) :=
  .disconnectOn _ (Rests.lift _).moves

theorem waitForSuback (packetId : UInt16) (qos : QoS) : Moves (waitForSuback packetId qos) := by
  refine .waitForAck _ fun packet x h => ?_
  split at h
  case h_1 =>
    split at h <;> cases h
    exact .finishAck _
  case h_2 => cases h

theorem waitForUnsuback (packetId : UInt16) : Moves (waitForUnsuback packetId) := by
  refine .waitForAck _ fun packet x h => ?_
  split at h
  case h_1 =>
    split at h <;> cases h
    exact .finishAck _
  case h_2 => cases h

theorem call (op : Operation) : Moves op.call := by
  cases op
  case publish topic payload options =>
    have hs (packetId : Option UInt16) : Rests (publish.send topic payload options packetId) :=
      .bind (.lift _) fun _ => .sendEncoded _ _
    refine .after .ensureConnected fun _ => .after (.lift _) fun _ => .after .get fun _ => ?_
    refine .after (.lift _) fun _ => ?_
    cases options.qos
    case atMostOnce => exact (hs none).moves
    case atLeastOnce =>
      exact .after .takePacketId fun packetId => .after (hs packetId) fun _ => .waitForPuback packetId
  case subscribe filter qos =>
    refine .after .ensureConnected fun _ => .after .get fun _ => .after (.lift _) fun _ => ?_
    refine .after .takePacketId fun packetId => .after (.lift _) fun bytes => ?_
    exact .after (.sendEncoded _ _) fun _ => .waitForSuback packetId qos
  case unsubscribe filter =>
    refine .after .ensureConnected fun _ => .after (.lift _) fun _ => ?_
    refine .after .takePacketId fun packetId => .after (.lift _) fun bytes => ?_
    exact .after (.sendEncoded _ _) fun _ => .waitForUnsuback packetId

theorem recv : Moves recv := by
  refine .after .ensureConnected fun _ => .after .popIncoming fun message => ?_
  split
  case h_1 => exact (Rests.pure _).moves
  case h_2 =>
    refine .after .get fun c => ?_
    generalize c.pending + 1 = rounds
    induction rounds
    case zero => exact (Rests.throw _).moves
    case succ rounds ih =>
      refine .bind (.readPacketUntil none) fun packet => ?_
      split
      case h_1 => exact .bind (.acceptPublish _) fun _ => Rests.popIncoming.moves
      case h_2 =>
        refine .after (.modify (fun _ => rfl) fun _ => rfl) fun _ => ?_
        exact (Rests.ite (.pure _) (.fail _)).moves
      case h_3 => exact ih
      case h_4 => exact (Rests.failDisconnected _).moves

theorem handshake (options : ConnectOptions) : Moves (handshake options) := by
  refine .after .get fun _ => .after (.lift _) fun _ => .after .now fun _ => ?_
  refine .after (.deadlineAfter _ _) fun deadline => ?_
  refine .after .configure fun _ => .after .configure fun _ => .after .configure fun _ => ?_
  refine .after .now fun _ => .after (.modify (fun _ => rfl) fun _ => rfl) fun _ => ?_
  refine .after (.lift _) fun _ => .after (.sendEncoded _ _) fun _ => ?_
  refine .bind (.readPacketUntil _) fun packet => Rests.moves ?_
  split
  case h_2 => exact .fail _
  case h_1 ack =>
    refine .ite (.fail_bind _ _) (.bind (.lift _) fun _ => .bind (.negotiate ack) fun _ => ?_)
    refine .bind (.modify (fun _ => rfl) fun _ => rfl) fun _ => ?_
    exact .bind .configure fun _ => .configure

end Moves

-- A round of `readPacketUntil` that does something else if the frame reader is full.
def readPacketRoundOr (full : FrameReader → ClientM Unit) (deadline : Option Deadline) :
    ClientM (Option Packet) := do
  let client ← get
  match FrameReader.tryDecode client.frameReader with
  | .error e frameReader =>
    set { client with frameReader }
    failDisconnected e
  | .ok (some packet) frameReader =>
    set { client with frameReader, decoded := client.decoded ++ [packet] }
    let lastReadAt ← now
    modify ({ · with lastReadAt })
    if packet = .pingResp then
      modify ({ · with pingSentAt := none })
    return some packet
  | .ok none frameReader =>
    set { client with frameReader }
    serviceTimers deadline
    let _timeout ← nextReadTimeout deadline
    if let .error e ← onStream Transport.configure then
      failDisconnected (.io e)
    let frameReader := (← get).frameReader
    let capacity := frameReader.remainingCapacity
    if capacity = 0 then
      full frameReader
    match ← onStream (·.read (min capacity 8192)) with
    | .ok [] => failDisconnected .connectionClosed
    | .ok bytes =>
      let lastReadAt ← now
      modify fun client => { client with lastReadAt, frameReader := client.frameReader.push bytes }
      return none
    | .error e =>
      if e.kind = .interrupted ∨ e.kind = .timedOut ∨ e.kind = .wouldBlock then
        return none
      else
        failDisconnected (.io e)

theorem readPacketRound_eq : readPacketRound = readPacketRoundOr fun frameReader =>
    failDisconnected (.packetTooLarge (frameReader.maxPacketSize + 1) frameReader.maxPacketSize) :=
  rfl

theorem Rests.bind_congr {c : MqttClient} {x : ClientM α} {f g : α → ClientM β} (hx : Rests x)
    (h : ∀ a c', c'.frameReader = c.frameReader → f a c' = g a c') : (x >>= f) c = (x >>= g) c := by
  have hr := (hx c).left
  cases hc : x c <;> rw [hc] at hr
  case ok a c' => rw [EStateM.bind_ok hc, EStateM.bind_ok hc, h a c' hr]
  case error => rw [EStateM.bind_error hc, EStateM.bind_error hc]

-- It does not matter what a client does if its frame reader is full, as it never is.
theorem readPacketRoundOr_eq {c : MqttClient} (h : c.frameReader.HasRoom)
    (full full' : FrameReader → ClientM Unit) (deadline : Option Deadline) :
    readPacketRoundOr full deadline c = readPacketRoundOr full' deadline c := by
  rw [readPacketRoundOr, readPacketRoundOr, EStateM.bind_ok (EStateM.get_apply _),
    EStateM.bind_ok (EStateM.get_apply _)]
  cases hd : FrameReader.tryDecode c.frameReader
  case error => rfl
  case ok packet reader =>
    cases packet
    case some => rfl
    case none =>
      dsimp only
      rw [EStateM.bind_ok (EStateM.set_apply ..), EStateM.bind_ok (EStateM.set_apply ..)]
      refine (Rests.serviceTimers deadline).bind_congr fun _ c₁ h₁ => ?_
      refine (Rests.nextReadTimeout deadline).bind_congr fun _ c₂ h₂ => ?_
      refine (Rests.onStream _).bind_congr fun result c₃ h₃ => ?_
      have hc : c₃.frameReader.remainingCapacity ≠ 0 := by
        rw [h₃, h₂, h₁]
        exact (h reader hd).ne'
      cases result
      case error => rfl
      case ok =>
        dsimp only
        rw [EStateM.bind_ok (EStateM.get_apply _), EStateM.bind_ok (EStateM.get_apply _), if_neg hc,
          if_neg hc]

-- The packets that come out of a clean reader are ones that it has room for.
structure Fit (max : Nat) (c : MqttClient) : Prop where
  clean : c.frameReader.Clean max
  connAck : ∀ ack, .connAck ack ∈ c.decoded → 5 ≤ max

variable {max : Nat} {c c' : MqttClient}

theorem Fit.step (h : Fit max c) (hm : Move c c') : Fit max c' := by
  refine ⟨h.clean.uses hm.uses, fun ack ha => ?_⟩
  cases hm
  case aside _ hd => exact h.connAck ack (hd ▸ ha)
  case refuse => exact h.connAck ack ha
  case wait => exact h.connAck ack ha
  case receive => exact h.connAck ack ha
  case item packet reader hd =>
    cases List.mem_append.mp ha
    case inl ha => exact h.connAck ack ha
    case inr ha =>
      obtain rfl := List.mem_singleton.mp ha
      have hr := h.clean.answers
      rw [hd] at hr
      cases hr
      case item hn _ _ _ => exact nextPacket_connAck hn

theorem Fit.leads {x : ClientM α} (h : Fit max c) (hx : Moves x) : Fit max (x c).state :=
  (hx c).preserves (fun _ _ hm h => h.step hm) h

theorem Fit.of_ok {x : ClientM α} (h : Fit max c) (hx : Moves x) (hr : x c = .ok a c') : Fit max c' := by
  have hf := h.leads hx
  rwa [hr] at hf

-- A client that has got its CONNACK.
theorem connectWith_clean {stream : Transport} {clock : Clock}
    (h : connectWith stream clock options = .ok c) :
    5 ≤ options.maxPacketSize ∧ c.frameReader.Clean options.maxPacketSize := by
  obtain ⟨_, ack, hg, _⟩ := connectWith_greeted h
  rw [connectWith] at h
  split at h
  case h_2 => cases h
  case h_1 hs =>
    cases h
    have hf := Fit.of_ok ⟨.withMaxPacketSize _, fun _ ha => by cases ha⟩ (.handshake options) hs
    exact ⟨hf.connAck ack (hg ▸ List.mem_singleton_self _), hf.clean⟩

end MqttClient
end MqttWasi
