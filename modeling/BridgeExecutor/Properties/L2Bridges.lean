import BridgeExecutor.ArbitrumBridge
import BridgeExecutor.OptimismBridge
import BridgeExecutor.Properties.Aliasing
import BridgeExecutor.Properties.Executing

/-!
# Messages between Ethereum and the executors on Optimism and Arbitrum

On Optimism the executor believes what the messenger says about the sender, and asks while it is
being called.  A message that is sent on Ethereum has its true sender, and is queued or reverts; a
message that somebody hands to the messenger on Optimism has the sender that he likes.  What
`setSender` has written before plays no part in either.

On Arbitrum the executor looks at its caller and undoes the alias.  It obeys the inbox because of
where that is; the inbox takes every ticket and returns its number, whatever has become of it.

On both the one who sends decides how much gas the executor is given, and it has to be enough.

* `sendMessage_delivers` — from Ethereum to the queue of the executor on Optimism
* `redirect_forged` — the same without Ethereum
* `OptimismBridge.sendMessageToL1_eq` — on the way back nobody is told of a failure
* `createRetryableTicket_delivers` — what becomes of a ticket for the executor on Arbitrum
-/

namespace BridgeExecutor

open Reentrant BridgeExecutorBase

section

variable {H : Type} [DecidableEq H] {K : Keccak H} {this : Address} {now : UInt256}
  {guard : Msg → L2Storage → Except Error Unit} {a : Actions} {e e' : State H L2Storage}

/-- `queue` of `L2BridgeExecutor` leaves the check to its modifier. -/
theorem own_queue {msg : Msg} : own K (l2BridgeExecutor guard) this now msg (.queue a) e = .ok e' ↔
    guard msg e.own = .ok () ∧ queue K now a e = .ok e' := by
  unfold own l2BridgeExecutor
  dsimp only
  cases guard msg e.own with
  | error err => simp
  | ok u => simp

theorem external_queue {m : Message L2Fn} (hvalue : m.value = 0) (hf : m.fn = .own (.queue a)) :
    external K (l2BridgeExecutor guard) this now m e
      = .ofExcept (own K (l2BridgeExecutor guard) this now m.toMsg (.queue a) e) := by
  obtain ⟨⟨sender, value, xDomainMessageSender⟩, fn⟩ := m
  obtain rfl : value = 0 := hvalue
  obtain rfl : fn = .own (.queue a) := hf
  rfl

end

/-! ## Optimism -/

section

variable {H : Type} {K : Keccak H} {B : OptimismBridge} {now : UInt256}

/-! ## To Ethereum -/

namespace OptimismBridge

/-- On the way back nobody is told of a failure. -/
theorem sendMessageToL1_eq (hK : K.FourBytes) {t : L2MessengerStorage}
    (ht : t.l1Messenger = B.l1Messenger) (sender target : Address)
    (message : Bytes) (gasLimit : BitVec 32) (s : L1MessengerStorage) :
    B.sendMessageToL1 K now sender target message gasLimit t (s, ()) = .ok (t, (), s, ()) := by
  have hentry : (l2CrossDomainMessenger K B.l2Messenger).entry now
      ⟨sender, 0, .sendMessage target message gasLimit⟩ t
      = passOn t ⟨⟨false, t.l1Messenger, 0, (redirectToL1Method K).callData
        (target, message, gasLimit, ())⟩, none⟩ := bridgeContract_entry ..
  have hredirect : (l1CrossDomainMessenger K B.l1Messenger).entry now
      ⟨B.l2Messenger, 0, .redirect target message gasLimit⟩ s
      = .call s ⟨⟨false, target, 0, message.data⟩, some gasLimit.toNat⟩ fun s' _ _ =>
        .done s' () := bridgeContract_entry ..
  rw [sendMessageToL1, hentry, run_passOn, ht, limited_eq, l1MessengerAnswers,
    answers_eq (decode_redirectToL1 hK _ _ _)]
  refine ⟨rfl, rfl, ?_⟩
  dsimp only
  rw [hredirect, Prog.run_call rfl]
  dsimp only [limited]
  split
  · cases (B.elsewhere ⟨false, target, 0, message.data⟩).1 <;> rfl
  · rfl

end OptimismBridge

/-! ## To Optimism -/

theorem entry_redirect {l2Messenger caller sender target : Address} {message : Bytes}
    {gasLimit : BitVec 32} (t : L2MessengerStorage) :
    (l2CrossDomainMessenger K l2Messenger).entry now
      ⟨caller, 0, .redirect sender target message gasLimit⟩ t
      = passOn { t with sender } ⟨⟨false, target, 0, message.data⟩, some gasLimit.toNat⟩ :=
  bridgeContract_entry ..

variable [DecidableEq H]

namespace OptimismBridge

/-- The executor takes the set, as coming from `sender`. -/
structure Takes (B : OptimismBridge) (K : Keccak H) (now : UInt256) (sender : Address)
    (a : Actions) (e e' : State H L2Storage) : Prop where
  messenger : B.l2Messenger = B.ovmL2CrossDomainMessenger
  governance : sender = e.own.ethereumGovernanceExecutor
  queued : queue K now a e = .ok e'

/-- The check of the executor, when the messenger calls. -/
theorem guard_eq_ok {t : L2MessengerStorage} {a : Actions} {own : L2Storage} :
    optimismOnlyEthereumGovernanceExecutor B.ovmL2CrossDomainMessenger
        (B.executorMessage t 0 a).toMsg own = .ok () ↔
      B.l2Messenger = B.ovmL2CrossDomainMessenger ∧ t.sender = own.ethereumGovernanceExecutor := by
  show (if B.l2Messenger ≠ B.ovmL2CrossDomainMessenger then
      Except.error Error.unauthorizedEthereumExecutor
    else if t.sender ≠ own.ethereumGovernanceExecutor then .error .unauthorizedEthereumExecutor
    else .ok ()) = Except.ok () ↔ _
  by_cases hmessenger : B.l2Messenger = B.ovmL2CrossDomainMessenger
  · by_cases hgovernance : t.sender = own.ethereumGovernanceExecutor <;>
    simp [hmessenger, hgovernance]
  · simp [hmessenger]

/-- The call of the messenger, at the executor. -/
theorem executorAnswers_eq (hK : K.FourBytes) {s : L2MessengerStorage} {a : Actions}
    {message : Bytes} (hmessage : message.data = (queueMethod K).callData a)
    {e e' : State H L2Storage} :
    (∃ d, B.executorAnswers K now s ⟨false, B.executor, 0, message.data⟩ (e, ())
      = (true, d, e', ())) ↔ B.Takes K now s.sender a e e' := by
  rw [executorAnswers, answers_eq (decode_queue hK hmessage), optimismBridgeExecutor,
    external_queue rfl rfl, Prog.run_ofExcept, own_queue, guard_eq_ok]
  exact ⟨fun h => ⟨h.1.1.1, h.1.1.2, h.1.2⟩,
    fun h => ⟨⟨⟨h.messenger, h.governance⟩, h.queued⟩, rfl⟩⟩

/-- `redirect`, called by anybody, against the executor. -/
theorem redirect_eq (hK : K.FourBytes) {caller sender : Address} {a : Actions} {message : Bytes}
    (hmessage : message.data = (queueMethod K).callData a) {gasLimit : BitVec 32}
    {s s' : L2MessengerStorage} {e e' : State H L2Storage} :
    B.redirect K now caller sender B.executor message gasLimit s (e, ()) = .ok (s', (), e', ()) ↔
      s' = { s with sender } ∧
        B.enoughGas ⟨false, B.executor, 0, message.data⟩ gasLimit.toNat = true ∧
        B.Takes K now sender a e e' := by
  rw [redirect, entry_redirect, run_passOn, limited_eq, executorAnswers_eq hK hmessage]
  rfl

/-- `sendMessage` against the messenger and the executor on Optimism. -/
theorem sendMessage_eq (hK : K.FourBytes) {s s' : L1MessengerStorage}
    (hs : s.l2Messenger = B.l2Messenger) {sender : Address} {a : Actions} {message : Bytes}
    (hmessage : message.data = (queueMethod K).callData a) {gasLimit : BitVec 32}
    {t t' : L2MessengerStorage} {e e' : State H L2Storage} :
    B.sendMessage K now sender B.executor message gasLimit s (t, e, ())
      = .ok (s', (), t', e', ()) ↔
    s' = s ∧ t' = { t with sender } ∧
      B.enoughGas ⟨false, B.executor, 0, message.data⟩ gasLimit.toNat = true ∧
      B.Takes K now sender a e e' := by
  have hentry : (l1CrossDomainMessenger K B.l1Messenger).entry now
      ⟨sender, 0, .sendMessage B.executor message gasLimit⟩ s
      = passOn s ⟨⟨false, s.l2Messenger, 0, (redirectMethod K).callData
        (sender, B.executor, message, gasLimit, ())⟩, none⟩ := bridgeContract_entry ..
  rw [sendMessage, hentry, run_passOn, hs, limited_eq, l2MessengerAnswers,
    answers_eq (decode_redirect hK _ _ _ _)]
  exact and_congr_right fun _ => (and_iff_right rfl).trans (redirect_eq hK hmessage)

/-- The executor of the bridge among all other code. -/
abbrev optimismExecutor (B : OptimismBridge) (K : Keccak H) :
    Contract Address UInt256 (Message L2Fn) (State H L2Storage) OutCall (List UInt8) Error :=
  BridgeExecutor.executor K (optimismBridgeExecutor B.ovmL2CrossDomainMessenger) B.executor

theorem Takes.serves {s : L2MessengerStorage} {a : Actions} {e e' : State H L2Storage}
    (h : B.Takes K now s.sender a e e') :
    (B.optimismExecutor K).Serves now (B.executorMessage s 0 a) e e' := by
  refine .of_done ?_
  show external K (l2BridgeExecutor _) B.executor now (B.executorMessage s 0 a) e = _
  rw [external_queue rfl rfl, own_queue.mpr ⟨guard_eq_ok.mpr ⟨h.messenger, h.governance⟩, h.queued⟩]
  rfl

end OptimismBridge

/-! ## An example

The executor of the example run, now behind the messengers of Optimism.
-/

namespace Example

def optimismBridge : OptimismBridge where
  l1Messenger := 1
  l2Messenger := 2
  executor := this
  ovmL2CrossDomainMessenger := 2
  elsewhere _ := (true, [])
  revertData _ := []
  errorData _ := []
  enoughGas _ gas := decide (500000 ≤ gas)

def queueCall : Bytes := ⟨(queueMethod paddedKeccak).callData actions, by decide +kernel⟩

theorem queueCall_data : queueCall.data = (queueMethod paddedKeccak).callData actions := rfl

theorem enoughGas_queueCall : optimismBridge.enoughGas ⟨false, this, 0, queueCall.data⟩
    (15000000 : BitVec 32).toNat = true := rfl

theorem queue_start : queue paddedKeccak 1000 actions start
    = .ok (start.queued paddedKeccak actions 1100) :=
  queue_eq_ok.mpr ⟨wellFormed_actions, by decide, List.nodup_singleton _, fun _ _ => rfl, rfl⟩

end Example

open OptimismBridge in
/--
**A set that is sent from Ethereum is queued, or the whole call reverts.**

It is queued exactly if the executor gets by with the gas limit of the message, was constructed
with this messenger, the sender is the governance of Ethereum that the executor knows, and `_queue`
accepts it; whatever sender the messenger had in mind before is overwritten.
-/
theorem sendMessage_delivers (hK : K.FourBytes) {s : L1MessengerStorage}
    (hs : s.l2Messenger = B.l2Messenger) {a : Actions} {message : Bytes}
    (hmessage : message.data = (queueMethod K).callData a) (now : UInt256) (sender : Address)
    (gasLimit : BitVec 32) (t t' : L2MessengerStorage) (e e' : State H L2Storage) :
    (∀ s', B.sendMessage K now sender B.executor message gasLimit s (t, e, ())
        = .ok (s', (), t', e', ()) ↔
      s' = s ∧ t' = { t with sender } ∧
        B.enoughGas ⟨false, B.executor, 0, message.data⟩ gasLimit.toNat = true ∧
        B.l2Messenger = B.ovmL2CrossDomainMessenger ∧
        sender = e.own.ethereumGovernanceExecutor ∧ queue K now a e = .ok e') ∧
    (∀ s', B.sendMessage K now sender B.executor message gasLimit s (t, e, ())
        = .ok (s', (), t', e', ()) →
      a.WellFormed ∧ e' = e.queued K a (now + e.delay) ∧
      (l2CrossDomainMessenger K B.l2Messenger).Serves now
        ⟨B.l1Messenger, 0, .redirect sender B.executor message gasLimit⟩ t t' ∧
      (B.optimismExecutor K).Serves now (B.executorMessage t' 0 a) e e') := by
  refine ⟨fun s' => ?_, fun s' h => ?_⟩
  · rw [sendMessage_eq hK hs hmessage]
    constructor
    · rintro ⟨hs', ht', henough, htakes⟩
      exact ⟨hs', ht', henough, htakes.messenger, htakes.governance, htakes.queued⟩
    · rintro ⟨hs', ht', henough, hmessenger, hgovernance, hqueued⟩
      exact ⟨hs', ht', henough, hmessenger, hgovernance, hqueued⟩
  · obtain ⟨-, rfl, -, htakes⟩ := (sendMessage_eq hK hs hmessage).mp h
    obtain ⟨hwf, -, -, -, he⟩ := queue_eq_ok.mp htakes.queued
    exact ⟨hwf, he, serves_passOn (entry_redirect t), htakes.serves⟩

/-- Governance sends a set. -/
theorem sendMessage_delivers_actions : Example.optimismBridge.sendMessage Example.paddedKeccak
    1000 Example.governance Example.this Example.queueCall 15000000 ⟨0, 2⟩
    (⟨66, 1⟩, Example.start, ()) = .ok (⟨0, 2⟩, (), ⟨Example.governance, 1⟩,
      Example.start.queued Example.paddedKeccak Example.actions 1100, ()) :=
  ((sendMessage_delivers (B := Example.optimismBridge) (s := ⟨0, 2⟩)
    Example.fourBytes_paddedKeccak rfl Example.queueCall_data 1000 Example.governance 15000000
    ⟨66, 1⟩ _ _ _).1 _).mpr ⟨rfl, rfl, Example.enoughGas_queueCall, rfl, rfl, Example.queue_start⟩

open OptimismBridge in
/--
**The messenger on Optimism vouches for nobody.**

Any account can have any set queued that `_queue` accepts, by naming the governance of Ethereum
as the sender, and by giving the executor enough gas.
-/
theorem redirect_forged (hK : K.FourBytes) (hB : B.l2Messenger = B.ovmL2CrossDomainMessenger)
    {a : Actions} {message : Bytes} (hmessage : message.data = (queueMethod K).callData a)
    (now : UInt256) (caller : Address) (gasLimit : BitVec 32) (t t' : L2MessengerStorage)
    (e e' : State H L2Storage) :
    B.redirect K now caller e.own.ethereumGovernanceExecutor B.executor message gasLimit t (e, ())
        = .ok (t', (), e', ()) ↔
      t' = { t with sender := e.own.ethereumGovernanceExecutor } ∧
        B.enoughGas ⟨false, B.executor, 0, message.data⟩ gasLimit.toNat = true ∧
        queue K now a e = .ok e' := by
  rw [redirect_eq hK hmessage]
  constructor
  · rintro ⟨ht', henough, htakes⟩
    exact ⟨ht', henough, htakes.queued⟩
  · rintro ⟨ht', henough, hqueued⟩
    exact ⟨ht', henough, hB, rfl, hqueued⟩

/-- The account 66 sends the same set. -/
theorem redirect_forged_actions : Example.optimismBridge.redirect Example.paddedKeccak
    1000 66 Example.governance Example.this Example.queueCall 15000000 ⟨0, 1⟩ (Example.start, ())
      = .ok (⟨Example.governance, 1⟩, (),
        Example.start.queued Example.paddedKeccak Example.actions 1100, ()) :=
  (redirect_forged (B := Example.optimismBridge) (e := Example.start)
    Example.fourBytes_paddedKeccak rfl Example.queueCall_data 1000 66 15000000 ⟨0, 1⟩ _ _).mpr
      ⟨rfl, Example.enoughGas_queueCall, Example.queue_start⟩

end

/-! ## Arbitrum -/

section

variable {H : Type} [DecidableEq H] {K : Keccak H} {B : ArbitrumBridge} {now : UInt256}

namespace ArbitrumBridge

/-- The executor takes the set from the inbox. -/
structure Takes (B : ArbitrumBridge) (K : Keccak H) (now : UInt256) (a : Actions)
    (e e' : State H L2Storage) : Prop where
  inbox : B.inbox = AddressAliasHelper.applyL1ToL2Alias e.own.ethereumGovernanceExecutor
  queued : queue K now a e = .ok e'

/-- The call of the inbox, at the executor. -/
theorem executorAnswers_eq (hK : K.FourBytes) {a : Actions} {data : Bytes}
    (hdata : data.data = (queueMethod K).callData a) {e e' : State H L2Storage} :
    (∃ d, B.executorAnswers K now ⟨false, B.executor, 0, data.data⟩ (e, ()) = (true, d, e', ())) ↔
      B.Takes K now a e e' := by
  rw [executorAnswers, answers_eq (decode_queue hK hdata), arbitrumBridgeExecutor,
    external_queue rfl rfl, Prog.run_ofExcept, own_queue,
    arbitrumOnlyEthereumGovernanceExecutor_eq_ok]
  exact ⟨fun h => ⟨h.1.1, h.1.2⟩, fun h => ⟨⟨h.inbox, h.queued⟩, rfl⟩⟩

/-- The executor of the bridge among all other code. -/
abbrev arbitrumExecutor (B : ArbitrumBridge) (K : Keccak H) :
    Contract Address UInt256 (Message L2Fn) (State H L2Storage) OutCall (List UInt8) Error :=
  BridgeExecutor.executor K arbitrumBridgeExecutor B.executor

theorem Takes.serves {a : Actions} {e e' : State H L2Storage} (h : B.Takes K now a e e') :
    (B.arbitrumExecutor K).Serves now (B.executorMessage 0 a) e e' := by
  refine .of_done ?_
  show external K (l2BridgeExecutor _) B.executor now (B.executorMessage 0 a) e = _
  rw [external_queue rfl rfl,
    own_queue.mpr ⟨arbitrumOnlyEthereumGovernanceExecutor_eq_ok.mpr h.inbox, h.queued⟩]
  rfl

/-- What a ticket leaves behind, whatever it is for. -/
theorem createRetryableTicket_run {target : Address} {gasLimit : UInt256} {data : Bytes}
    {s : InboxStorage} {e : State H L2Storage} {success : Bool} {returnData : List UInt8}
    {w : State H L2Storage × Unit}
    (h : limited B.enoughGas (B.executorAnswers K now)
      ⟨⟨false, target, 0, data.data⟩, some gasLimit.toNat⟩ (e, ()) = (success, returnData, w)) :
    B.createRetryableTicket K now target gasLimit data s (e, ())
      = .ok (s, s.messageNum, if success then w else (e, ())) := by
  rw [createRetryableTicket, MockInbox.createRetryableTicket,
    Prog.run_call (h := fun _ => limited B.enoughGas (B.executorAnswers K now)) h, Prog.run_done]

end ArbitrumBridge

open ArbitrumBridge in
/--
**A ticket is taken in any case, and its set is queued or nothing has happened.**

The set is queued exactly if the executor gets by with the gas limit of the ticket, the inbox is
the alias of the governance that the executor knows, and `_queue` accepts it; who has created the
ticket plays no part.  The number that is returned does not tell.
-/
theorem createRetryableTicket_delivers (hK : K.FourBytes) {a : Actions} {data : Bytes}
    (hdata : data.data = (queueMethod K).callData a) (now gasLimit : UInt256) (s : InboxStorage)
    (e : State H L2Storage) : ∃ e',
      B.createRetryableTicket K now B.executor gasLimit data s (e, ())
        = .ok (s, s.messageNum, e', ()) ∧
      (∀ e'', B.enoughGas ⟨false, B.executor, 0, data.data⟩ gasLimit.toNat = true →
        B.inbox = AddressAliasHelper.applyL1ToL2Alias e.own.ethereumGovernanceExecutor →
        queue K now a e = .ok e'' → e' = e'' ∧ a.WellFormed ∧
          e'' = e.queued K a (now + e.delay) ∧
          (B.arbitrumExecutor K).Serves now (B.executorMessage 0 a) e e'') ∧
      ((B.enoughGas ⟨false, B.executor, 0, data.data⟩ gasLimit.toNat = true →
        B.inbox = AddressAliasHelper.applyL1ToL2Alias e.own.ethereumGovernanceExecutor →
        ∃ err, queue K now a e = .error err) → e' = e) := by
  rcases hanswer : limited B.enoughGas (B.executorAnswers K now)
      ⟨⟨false, B.executor, 0, data.data⟩, some gasLimit.toNat⟩ (e, ()) with
    ⟨success, returnData, e', u⟩
  have htakes (e'' : State H L2Storage) :
      (∃ d, limited B.enoughGas (B.executorAnswers K now)
        ⟨⟨false, B.executor, 0, data.data⟩, some gasLimit.toNat⟩ (e, ()) = (true, d, e'', ())) ↔
      B.enoughGas ⟨false, B.executor, 0, data.data⟩ gasLimit.toNat = true ∧
        B.Takes K now a e e'' := by
    rw [limited_eq, executorAnswers_eq hK hdata]
    rfl
  rw [createRetryableTicket_run hanswer]
  cases success with
  | true =>
    obtain ⟨henough, htaken⟩ := (htakes e').mp ⟨returnData, hanswer⟩
    refine ⟨e', rfl, fun e'' _ _ hq => ?_, fun herror => ?_⟩
    · obtain rfl : e' = e'' := by
        have h := htaken.queued.symm.trans hq
        cases h
        rfl
      obtain ⟨hwf, -, -, -, he⟩ := queue_eq_ok.mp hq
      exact ⟨rfl, hwf, he, htaken.serves⟩
    · obtain ⟨err, hq⟩ := herror henough htaken.inbox
      rw [htaken.queued] at hq
      cases hq
  | false =>
    refine ⟨e, rfl, fun e'' henough hinbox hq => ?_, fun _ => rfl⟩
    -- a call that the executor accepts does not fail
    obtain ⟨d, hd⟩ := (htakes e'').mpr ⟨henough, hinbox, hq⟩
    rw [hanswer] at hd
    cases hd

namespace Example

/-- The inbox is where the tests put it. -/
def arbitrumBridge : ArbitrumBridge where
  inbox := AddressAliasHelper.applyL1ToL2Alias governance
  executor := this
  elsewhere _ := (true, [])
  errorData _ := []
  enoughGas _ gas := decide (500000 ≤ gas)

end Example

/-- A ticket with the same set. -/
theorem createRetryableTicket_delivers_actions : ∃ e',
    Example.arbitrumBridge.createRetryableTicket Example.paddedKeccak 1000 Example.this 600000
        Example.queueCall ⟨5⟩ (Example.start, ()) = .ok (⟨5⟩, 5, e', ()) ∧
      e' = Example.start.queued Example.paddedKeccak Example.actions 1100 := by
  obtain ⟨e', hrun, htaken, -⟩ := createRetryableTicket_delivers (B := Example.arbitrumBridge)
    Example.fourBytes_paddedKeccak Example.queueCall_data 1000 600000 ⟨5⟩ Example.start
  exact ⟨e', hrun, (htaken _ rfl rfl Example.queue_start).1⟩

end

end BridgeExecutor
