import BridgeExecutor.Scripts.TicketIds
import BridgeExecutor.Properties.RetryableTicket
import Mathlib.Data.List.Nodup

/-!
# The ids that are printed

The events of a transaction come in any order, between the logs of other contracts, and the two
events of one message need not be neighbours.  The script finds for every message its other half.

It looks at the first topic of a log only, so other contracts can get in its way: a log with one of
the two topics that does not parse ends it, as does a message without its other half, and the first
event with a number is taken, whoever has emitted it.

* `getL1ToL2Messages_eq` — what the script puts together, and when it fails
* `getTicketId_submissions` — of a ticket that was submitted the id is printed, or nothing
-/

namespace BridgeExecutor

variable {H : Type} [DecidableEq H]

/-! ## Receipts -/

/-- The events of the bridge and of the inbox in the logs of a transaction, each kind in its
order: every log with the topic of one of them is read as such an event. -/
structure Receipt (I : Interfaces H) (K : Keccak H) (logs : List (Log H))
    (mds : List MessageDelivered) (imds : List InboxMessageDelivered) : Prop where
  messageDelivered : (logs.filter fun log =>
    log.topics.head? = some (messageDeliveredTopic K)).map I.bridge = mds.map some
  inboxMessageDelivered : (logs.filter fun log =>
    log.topics.head? = some (inboxMessageDeliveredTopic K)).map I.inbox = imds.map some

/-- Some log has the topic of one of the two events and is not read. -/
def Unreadable (I : Interfaces H) (K : Keccak H) (logs : List (Log H)) : Prop :=
  ∃ log ∈ logs,
    (log.topics.head? = some (messageDeliveredTopic K) ∧ I.bridge log = none) ∨
    (log.topics.head? = some (inboxMessageDeliveredTopic K) ∧ I.inbox log = none)

section

variable {α : Type} {parseLog : Log H → Option α} {topic : H}

theorem getEvents_skip {log : Log H} {logs : List (Log H)}
    (htopic : log.topics.head? ≠ some topic) :
    getEvents parseLog topic (log :: logs) = getEvents parseLog topic logs := by
  rw [getEvents, if_neg htopic]

/-- The logs with the topic are read, and no others. -/
theorem getEvents_eq_ok : ∀ {logs : List (Log H)} {events : List α},
    getEvents parseLog topic logs = .ok events ↔
      (logs.filter fun log => log.topics.head? = some topic).map parseLog = events.map some
  | [], events => by
    rw [getEvents, List.filter_nil, List.map_nil, eq_comm (a := []), List.map_eq_nil_iff]
    exact ⟨by rintro ⟨⟩; rfl, by rintro rfl; rfl⟩
  | log :: logs, events => by
    by_cases htopic : log.topics.head? = some topic
    · rw [getEvents, if_pos htopic, List.filter_cons_of_pos (by simpa using htopic), List.map_cons]
      cases hparse : parseLog log with
      | none => cases events <;> exact ⟨nofun, nofun⟩
      | some event =>
        cases hrest : getEvents parseLog topic logs with
        | error e =>
          refine ⟨nofun, fun h => ?_⟩
          cases events with
          | nil => cases h
          | cons event' events =>
            have hok := getEvents_eq_ok.mpr (List.cons.inj h).2
            rw [hrest] at hok
            cases hok
        | ok events' =>
          rw [getEvents_eq_ok.mp hrest]
          constructor
          · rintro ⟨⟩
            rfl
          · intro h
            exact congrArg Except.ok ((List.map_inj_right fun _ _ => Option.some.inj).mp h)
    · rw [getEvents_skip htopic, List.filter_cons_of_neg (by simpa using htopic), getEvents_eq_ok]

/-- A log with the topic that is not read is the only reason to fail. -/
theorem getEvents_eq_error : ∀ {logs : List (Log H)} {e : ScriptError},
    getEvents parseLog topic logs = .error e ↔
      e = .ethers ∧ ∃ log ∈ logs, log.topics.head? = some topic ∧ parseLog log = none
  | [], e => ⟨nofun, by rintro ⟨-, log, ⟨⟩, -⟩⟩
  | log :: logs, e => by
    rw [List.exists_mem_cons_iff]
    by_cases htopic : log.topics.head? = some topic
    · rw [getEvents, if_pos htopic]
      cases hparse : parseLog log with
      | none =>
        constructor
        · rintro ⟨⟩
          exact ⟨rfl, .inl ⟨htopic, rfl⟩⟩
        · rintro ⟨rfl, -⟩
          rfl
      | some event =>
        rw [or_iff_right (by rintro ⟨-, ⟨⟩⟩), ← getEvents_eq_error]
        dsimp only [ofEthers]
        cases getEvents parseLog topic logs with
        | error e' => rfl
        | ok events => exact ⟨nofun, nofun⟩
    · rw [getEvents_skip htopic, or_iff_right fun h => htopic h.1, getEvents_eq_error]

end

variable {I : Interfaces H} {K : Keccak H} {logs : List (Log H)}

/-- A log that is not read ends the script. -/
theorem Unreadable.getL1ToL2Messages (h : Unreadable I K logs) :
    getL1ToL2Messages I K logs = .error .ethers := by
  obtain ⟨log, hlog, ⟨htopic, hparse⟩ | ⟨htopic, hparse⟩⟩ := h
  · have hmds : getEvents I.bridge (messageDeliveredTopic K) logs = .error .ethers :=
      getEvents_eq_error.mpr ⟨rfl, log, hlog, htopic, hparse⟩
    rw [BridgeExecutor.getL1ToL2Messages, hmds]
  · have himds : getEvents I.inbox (inboxMessageDeliveredTopic K) logs = .error .ethers :=
      getEvents_eq_error.mpr ⟨rfl, log, hlog, htopic, hparse⟩
    rw [BridgeExecutor.getL1ToL2Messages]
    cases hmds : getEvents I.bridge (messageDeliveredTopic K) logs with
    | error e =>
      obtain ⟨rfl, -⟩ := getEvents_eq_error.mp hmds
      rfl
    | ok mds =>
      dsimp only
      rw [himds]

namespace Receipt

variable {mds mds' : List MessageDelivered} {imds imds' : List InboxMessageDelivered}

/-- Both kinds of events are found. -/
theorem getL1ToL2Messages (h : Receipt I K logs mds imds) :
    getL1ToL2Messages I K logs = matchEvents imds mds := by
  rw [BridgeExecutor.getL1ToL2Messages, getEvents_eq_ok.mpr h.messageDelivered]
  dsimp only
  rw [getEvents_eq_ok.mpr h.inboxMessageDelivered]

/-- The logs say what the events are. -/
theorem unique (h : Receipt I K logs mds imds) (h' : Receipt I K logs mds' imds') :
    mds' = mds ∧ imds' = imds :=
  ⟨(List.map_inj_right fun _ _ => Option.some.inj).mp
      (h'.messageDelivered.symm.trans h.messageDelivered),
    (List.map_inj_right fun _ _ => Option.some.inj).mp
      (h'.inboxMessageDelivered.symm.trans h.inboxMessageDelivered)⟩

end Receipt

/-- Either every log that the script looks at is read, or one is not. -/
theorem receipt_or_unreadable (I : Interfaces H) (K : Keccak H) (logs : List (Log H)) :
    (∃ mds imds, Receipt I K logs mds imds) ∨ Unreadable I K logs := by
  cases hmds : getEvents I.bridge (messageDeliveredTopic K) logs with
  | error e =>
    obtain ⟨-, log, hlog, hread⟩ := getEvents_eq_error.mp hmds
    exact .inr ⟨log, hlog, .inl hread⟩
  | ok mds =>
    cases himds : getEvents I.inbox (inboxMessageDeliveredTopic K) logs with
    | error e =>
      obtain ⟨-, log, hlog, hread⟩ := getEvents_eq_error.mp himds
      exact .inr ⟨log, hlog, .inr hread⟩
    | ok imds => exact .inl ⟨mds, imds, getEvents_eq_ok.mp hmds, getEvents_eq_ok.mp himds⟩

/-! ## Putting the events together -/

/-- The first event of the inbox with the number of the message. -/
def FirstWith (imds : List InboxMessageDelivered) (n : BigNumber) (i : InboxMessageDelivered) :
    Prop := ∃ before after, imds = before ++ i :: after ∧ i.messageNum = n ∧
      ∀ j ∈ before, j.messageNum ≠ n

theorem filter_getElem?_zero {imds : List InboxMessageDelivered} {n : BigNumber}
    {i : InboxMessageDelivered} :
    (imds.filter fun j => j.messageNum = n)[0]? = some i ↔ FirstWith imds n i := by
  induction imds with
  | nil => simp [FirstWith]
  | cons j imds ih =>
    by_cases hj : j.messageNum = n
    · rw [List.filter_cons_of_pos (by simpa using hj)]
      constructor
      · rintro ⟨⟩
        exact ⟨[], imds, rfl, hj, nofun⟩
      · rintro ⟨before, after, heq, hi, hbefore⟩
        cases before with
        | nil =>
          cases heq
          rfl
        | cons k before =>
          cases heq
          exact absurd hj (hbefore _ List.mem_cons_self)
    · rw [List.filter_cons_of_neg (by simpa using hj), ih]
      constructor
      · rintro ⟨before, after, rfl, hi, hbefore⟩
        exact ⟨j :: before, after, rfl, hi, List.forall_mem_cons.mpr ⟨hj, hbefore⟩⟩
      · rintro ⟨before, after, heq, hi, hbefore⟩
        cases before with
        | nil =>
          cases heq
          exact absurd hi hj
        | cons k before =>
          cases heq
          exact ⟨before, after, rfl, hi, fun x hx => hbefore x (List.mem_cons_of_mem _ hx)⟩

/-- There is only one first event with a number. -/
theorem FirstWith.unique {imds : List InboxMessageDelivered} {n : BigNumber}
    {i i' : InboxMessageDelivered} (h : FirstWith imds n i) (h' : FirstWith imds n i') : i = i' :=
  Option.some.inj ((filter_getElem?_zero.mpr h).symm.trans (filter_getElem?_zero.mpr h'))

theorem filter_getElem?_zero_eq_none {imds : List InboxMessageDelivered} {n : BigNumber} :
    (imds.filter fun j => j.messageNum = n)[0]? = none ↔ ∀ j ∈ imds, j.messageNum ≠ n := by
  rw [List.getElem?_eq_none_iff, Nat.le_zero, List.length_eq_zero_iff, List.filter_eq_nil_iff]
  simp

theorem matchEvents_cons {imds : List InboxMessageDelivered} {md : MessageDelivered}
    {mds : List MessageDelivered} {messages : List L1ToL2Message} :
    matchEvents imds (md :: mds) = .ok messages ↔ ∃ imd rest,
      FirstWith imds md.messageIndex imd ∧ matchEvents imds mds = .ok rest ∧
      messages = ⟨imd, md⟩ :: rest := by
  rw [matchEvents]
  cases hfirst : (imds.filter fun i => i.messageNum = md.messageIndex)[0]? with
  | none =>
    refine ⟨nofun, ?_⟩
    rintro ⟨imd, rest, himd, -, -⟩
    rw [filter_getElem?_zero.mpr himd] at hfirst
    cases hfirst
  | some i =>
    have hi : FirstWith imds md.messageIndex i := filter_getElem?_zero.mp hfirst
    dsimp only
    cases hrest : matchEvents imds mds with
    | error e =>
      refine ⟨nofun, ?_⟩
      rintro ⟨imd, rest, -, ⟨⟩, -⟩
    | ok rest =>
      constructor
      · rintro ⟨⟩
        exact ⟨i, rest, hi, rfl, rfl⟩
      · rintro ⟨imd, rest', himd, ⟨⟩, rfl⟩
        rw [himd.unique hi]

/-- The messages come in the order of the bridge. -/
theorem matchEvents_eq_ok {imds : List InboxMessageDelivered} : ∀ {mds : List MessageDelivered}
    {messages : List L1ToL2Message}, matchEvents imds mds = .ok messages ↔
      messages.map L1ToL2Message.messageDeliveredEvent = mds ∧
      ∀ m ∈ messages, FirstWith imds m.messageDeliveredEvent.messageIndex
        m.inboxMessageDeliveredEvent
  | [], messages => by
    rw [matchEvents, List.map_eq_nil_iff]
    constructor
    · rintro ⟨⟩
      exact ⟨rfl, nofun⟩
    · rintro ⟨rfl, -⟩
      rfl
  | md :: mds, messages => by
    rw [matchEvents_cons]
    constructor
    · rintro ⟨imd, rest, himd, hrest, rfl⟩
      obtain ⟨hmap, hall⟩ := matchEvents_eq_ok.mp hrest
      exact ⟨by rw [List.map_cons, hmap], List.forall_mem_cons.mpr ⟨himd, hall⟩⟩
    · rintro ⟨hmap, hall⟩
      cases messages with
      | nil => cases hmap
      | cons m messages =>
        obtain ⟨imd, md'⟩ := m
        obtain ⟨rfl, hmap'⟩ := List.cons.inj hmap
        obtain ⟨himd, hall'⟩ := List.forall_mem_cons.mp hall
        exact ⟨imd, messages, himd, matchEvents_eq_ok.mpr ⟨hmap', hall'⟩, rfl⟩

/-- The failure names the first message whose other half is missing. -/
theorem matchEvents_eq_error {imds : List InboxMessageDelivered} {e : ScriptError} :
    ∀ {mds : List MessageDelivered}, matchEvents imds mds = .error e ↔
      ∃ before md after, mds = before ++ md :: after ∧
        e = .missingEvent md.messageIndex imds ∧
        (∀ j ∈ imds, j.messageNum ≠ md.messageIndex) ∧
        ∀ m ∈ before, ∃ j ∈ imds, j.messageNum = m.messageIndex
  | [] => by
    refine ⟨nofun, ?_⟩
    rintro ⟨before, md, after, heq, -⟩
    cases before <;> cases heq
  | md :: mds => by
    rw [matchEvents]
    cases hfirst : (imds.filter fun i => i.messageNum = md.messageIndex)[0]? with
    | none =>
      have hnone := filter_getElem?_zero_eq_none.mp hfirst
      constructor
      · rintro ⟨⟩
        exact ⟨[], md, mds, rfl, rfl, hnone, nofun⟩
      · rintro ⟨before, md', after, heq, he, -, hbefore⟩
        cases before with
        | nil =>
          cases heq
          rw [he]
        | cons m before =>
          cases heq
          obtain ⟨j, hj, hnum⟩ := hbefore _ List.mem_cons_self
          exact absurd hnum (hnone j hj)
    | some i =>
      have himd : ∃ j ∈ imds, j.messageNum = md.messageIndex := by
        obtain ⟨_, _, rfl, hi, -⟩ := filter_getElem?_zero.mp hfirst
        exact ⟨i, List.mem_append_right _ List.mem_cons_self, hi⟩
      -- the first message is matched, so the failure is one of the others
      have hskip : (∃ before md' after, md :: mds = before ++ md' :: after ∧
          e = .missingEvent md'.messageIndex imds ∧
          (∀ j ∈ imds, j.messageNum ≠ md'.messageIndex) ∧
          ∀ m ∈ before, ∃ j ∈ imds, j.messageNum = m.messageIndex) ↔
          matchEvents imds mds = .error e := by
        rw [matchEvents_eq_error]
        constructor
        · rintro ⟨before, md', after, heq, he, hnone, hbefore⟩
          cases before with
          | nil =>
            cases heq
            obtain ⟨j, hj, hnum⟩ := himd
            exact absurd hnum (hnone j hj)
          | cons m before =>
            cases heq
            exact ⟨before, md', after, rfl, he, hnone,
              fun m hm => hbefore m (List.mem_cons_of_mem _ hm)⟩
        · rintro ⟨before, md', after, rfl, he, hnone, hbefore⟩
          exact ⟨md :: before, md', after, rfl, he, hnone,
            List.forall_mem_cons.mpr ⟨himd, hbefore⟩⟩
      rw [hskip]
      dsimp only
      cases matchEvents imds mds with
      | error e' => rfl
      | ok messages => exact ⟨nofun, nofun⟩

/-- A receipt is read to its end: what fails then is the search for the other halves. -/
theorem Receipt.not_unreadable {mds : List MessageDelivered} {imds : List InboxMessageDelivered}
    (h : Receipt I K logs mds imds) : ¬ Unreadable I K logs := by
  intro hunread
  obtain ⟨before, md, after, -, he, -⟩ :=
    matchEvents_eq_error.mp (h.getL1ToL2Messages.symm.trans hunread.getL1ToL2Messages)
  cases he

/-! ## The ids -/

section

variable {H : Type} {K : Keccak H} {E : Ethers}

namespace TicketInput

/-- The two events that a ticket leaves in the logs. -/
def messageDelivered (E : Ethers) (i : TicketInput) : MessageDelivered :=
  ⟨i.messageNumber.toNat, E.checksum i.sender, i.l1BaseFee.toNat⟩

def inboxMessageDelivered (i : TicketInput) : InboxMessageDelivered :=
  ⟨i.messageNumber.toNat, i.submission.eventData⟩

/-- The id of the ticket: the hash of its transaction. -/
def retryableId (E : Ethers) (K : Keccak H) (i : TicketInput) : H :=
  K.hash (0x69 :: E.rlpEncode i.fields)

/-- What the script makes of both events. -/
theorem ticketId_eq (hE : E.Documented) (i : TicketInput) :
    ticketId E K i.l2ChainId ⟨i.inboxMessageDelivered, i.messageDelivered E⟩
      = some (↑i.messageNumber.toNat, i.retryableId E K) := by
  have hpreimage := i.preimage_eq hE
  rw [preimage, parseInboxMessageDataField_eq hE, Option.bind_some] at hpreimage
  rw [ticketId, inboxMessageDelivered, messageDelivered]
  dsimp only
  rw [parseInboxMessageDataField_eq hE, Option.bind_some, calculateSubmitRetryableId, hpreimage]
  rfl

end TicketInput

/-- Tickets with numbers of their own: of each the right half is found. -/
theorem firstWith_inboxMessageDelivered {tickets : List TicketInput}
    (hnumbers : (tickets.map TicketInput.messageNumber).Nodup)
    {imds : List InboxMessageDelivered}
    (hperm : imds.Perm (tickets.map TicketInput.inboxMessageDelivered)) {i : TicketInput}
    (hi : i ∈ tickets) : FirstWith imds i.messageNumber.toNat i.inboxMessageDelivered := by
  have hmem : i.inboxMessageDelivered ∈ imds :=
    hperm.mem_iff.mpr (List.mem_map.mpr ⟨i, hi, rfl⟩)
  have hinj : Function.Injective fun n : UInt256 => (n.toNat : BigNumber) := fun _ _ h =>
    BitVec.eq_of_toNat_eq (Int.ofNat_inj.mp h)
  have hnodup : (imds.map InboxMessageDelivered.messageNum).Nodup := by
    rw [(hperm.map _).nodup_iff, List.map_map]
    have hmapped := hnumbers.map hinj
    rw [List.map_map] at hmapped
    exact hmapped
  obtain ⟨before, after, rfl⟩ := List.append_of_mem hmem
  rw [List.map_append, List.map_cons, List.nodup_append] at hnodup
  refine ⟨before, after, rfl, rfl, fun j hj => ?_⟩
  exact hnodup.2.2 _ (List.mem_map.mpr ⟨j, hj, rfl⟩) _ List.mem_cons_self

/-- A line that is printed is the one of the message at its place. -/
theorem printTicketIds_getElem? {chainId : Nat} {line : BigNumber × H} :
    ∀ {messages : List L1ToL2Message} {k : Nat},
      (printTicketIds E K chainId messages).1[k]? = some line →
      ∃ m, messages[k]? = some m ∧ ticketId E K chainId m = some line
  | [], _, h => nomatch h
  | m :: messages, k, h => by
    rw [printTicketIds] at h
    cases hid : ticketId E K chainId m with
    | none =>
      rw [hid] at h
      cases h
    | some line' =>
      rw [hid] at h
      cases k with
      | zero =>
        cases h
        exact ⟨m, rfl, hid⟩
      | succ k =>
        have hrest : (printTicketIds E K chainId messages).1[k]? = some line := h
        obtain ⟨m', hm', hid'⟩ := printTicketIds_getElem? hrest
        exact ⟨m', hm', hid'⟩

/-- The lines that are printed for messages whose tickets can be computed. -/
theorem printTicketIds_eq (hE : E.Documented) {chainId : Nat} : ∀ {tickets : List TicketInput},
    (∀ i ∈ tickets, i.l2ChainId = chainId) →
    printTicketIds E K chainId (tickets.map fun i =>
        ⟨i.inboxMessageDelivered, i.messageDelivered E⟩)
      = (tickets.map fun i => (↑i.messageNumber.toNat, i.retryableId E K), none)
  | [], _ => rfl
  | i :: tickets, h => by
    obtain ⟨rfl, hrest⟩ := List.forall_mem_cons.mp h
    rw [List.map_cons, printTicketIds, i.ticketId_eq hE, printTicketIds_eq hE hrest]
    rfl

end

variable {E : Ethers}

/-! ## An example

Two tickets in one transaction; the inbox speaks of the second one first.
-/

namespace Example

def otherTicket : TicketInput := { ticketInput submission with messageNumber := 8 }

def tickets : List TicketInput := [ticketInput submission, otherTicket]

def bridgeLog (payload : Text) : Log (List UInt8) := ⟨[messageDeliveredTopic paddedKeccak], payload⟩

def inboxLog (payload : Text) : Log (List UInt8) :=
  ⟨[inboxMessageDeliveredTopic paddedKeccak], payload⟩

/-- A deposit has a number as well, and no ticket behind it. -/
def deposit : MessageDelivered := ⟨9, hexString (addressDigits 5), 100⟩

def depositData : InboxMessageDelivered := ⟨9, hexString []⟩

/-- The payload is the position of the ticket; the deposit comes last. -/
def interfaces : Interfaces (List UInt8) where
  bridge log :=
    (tickets.map (TicketInput.messageDelivered Ethers.reference) ++ [deposit])[log.payload.length]?
  inbox log :=
    (tickets.map TicketInput.inboxMessageDelivered ++ [depositData])[log.payload.length]?

def ticketLogs : List (Log (List UInt8)) :=
  [inboxLog ['x'], ⟨[], []⟩, bridgeLog [], bridgeLog ['x'], inboxLog []]

theorem receipt_ticketLogs : Receipt interfaces paddedKeccak ticketLogs
    (tickets.map (TicketInput.messageDelivered Ethers.reference))
    [otherTicket.inboxMessageDelivered, (ticketInput submission).inboxMessageDelivered] :=
  ⟨by decide +kernel, by decide +kernel⟩

/-- One ticket and then the deposit. -/
def depositLogs : List (Log (List UInt8)) :=
  [bridgeLog [], bridgeLog ['x', 'x'], inboxLog ['x', 'x'], inboxLog []]

theorem receipt_depositLogs : Receipt interfaces paddedKeccak depositLogs
    [(ticketInput submission).messageDelivered Ethers.reference, deposit]
    [depositData, (ticketInput submission).inboxMessageDelivered] :=
  ⟨by decide +kernel, by decide +kernel⟩

theorem printed_depositLogs :
    ((getTicketId Ethers.reference interfaces paddedKeccak 42161 depositLogs).1[0]?).isSome := by
  decide +kernel

end Example

/--
**What the script puts together, and when it fails.**

Each message of the bridge comes with the first event of the inbox that has its number.  The
script fails if a log with one of the two topics is not read, or if a message has no such event,
and then names the first one for which that is so.
-/
theorem getL1ToL2Messages_eq (I : Interfaces H) (K : Keccak H) (logs : List (Log H)) :
    (∀ messages, getL1ToL2Messages I K logs = .ok messages ↔
      ∃ imds, Receipt I K logs (messages.map L1ToL2Message.messageDeliveredEvent) imds ∧
        ∀ m ∈ messages, FirstWith imds m.messageDeliveredEvent.messageIndex
          m.inboxMessageDeliveredEvent) ∧
    (getL1ToL2Messages I K logs = .error .ethers ↔ Unreadable I K logs) ∧
    ∀ n imds, getL1ToL2Messages I K logs = .error (.missingEvent n imds) ↔
      ∃ before md after, Receipt I K logs (before ++ md :: after) imds ∧ md.messageIndex = n ∧
        (∀ j ∈ imds, j.messageNum ≠ n) ∧
        ∀ m ∈ before, ∃ j ∈ imds, j.messageNum = m.messageIndex := by
  rcases receipt_or_unreadable I K logs with ⟨mds, imds, h⟩ | h
  · rw [h.getL1ToL2Messages]
    refine ⟨fun messages => ?_, ?_, fun n imds' => ?_⟩
    · constructor
      · intro hmatch
        obtain ⟨rfl, hfirst⟩ := matchEvents_eq_ok.mp hmatch
        exact ⟨imds, h, hfirst⟩
      · rintro ⟨imds', h', hfirst⟩
        obtain ⟨hmap, rfl⟩ := h.unique h'
        exact matchEvents_eq_ok.mpr ⟨hmap, hfirst⟩
    · refine iff_of_false (fun hmatch => ?_) h.not_unreadable
      obtain ⟨_, _, _, _, he, _⟩ := matchEvents_eq_error.mp hmatch
      cases he
    · constructor
      · intro hmatch
        obtain ⟨before, md, after, rfl, he, hnone, hbefore⟩ := matchEvents_eq_error.mp hmatch
        cases he
        exact ⟨before, md, after, h, rfl, hnone, hbefore⟩
      · rintro ⟨before, md, after, h', rfl, hnone, hbefore⟩
        obtain ⟨hmds, rfl⟩ := h.unique h'
        exact matchEvents_eq_error.mpr ⟨before, md, after, hmds.symm, rfl, hnone, hbefore⟩
  · rw [h.getL1ToL2Messages]
    refine ⟨fun messages => ⟨nofun, ?_⟩, iff_of_true rfl h, fun n imds => ⟨nofun, ?_⟩⟩
    · rintro ⟨_, h', -⟩
      exact absurd h h'.not_unreadable
    · rintro ⟨_, _, _, h', -⟩
      exact absurd h h'.not_unreadable

/--
**For a ticket that was submitted the script prints its id, or nothing.**

The first event of the inbox with its number has to be its own, which is so in any order of these
events if nobody else uses the number.  Among other messages the line at its place is right if the
script gets so far; where all messages are tickets every id is printed, in the order of the bridge,
and there is no exception.
-/
theorem getTicketId_submissions (hE : E.Documented) {chainId : Nat}
    {mds : List MessageDelivered} {imds : List InboxMessageDelivered}
    (h : Receipt I K logs mds imds) :
    (∀ (i : TicketInput) (k : Nat) line, i.l2ChainId = chainId →
      mds[k]? = some (i.messageDelivered E) →
      FirstWith imds i.messageNumber.toNat i.inboxMessageDelivered →
      (getTicketId E I K chainId logs).1[k]? = some line →
      line = (↑i.messageNumber.toNat, i.retryableId E K)) ∧
    ∀ tickets : List TicketInput, mds = tickets.map (TicketInput.messageDelivered E) →
      (∀ i ∈ tickets, i.l2ChainId = chainId) →
      (∀ i ∈ tickets, FirstWith imds i.messageNumber.toNat i.inboxMessageDelivered) →
      getTicketId E I K chainId logs
        = (tickets.map fun i => (↑i.messageNumber.toNat, i.retryableId E K), none) := by
  rw [getTicketId, h.getL1ToL2Messages]
  refine ⟨fun i k line hchain hi hfirst hline => ?_, fun tickets hmds hchain hfirst => ?_⟩
  · cases hmatch : matchEvents imds mds with
    | error e =>
      rw [hmatch] at hline
      cases hline
    | ok messages =>
      rw [hmatch] at hline
      obtain ⟨m, hm, hid⟩ := printTicketIds_getElem? hline
      obtain ⟨rfl, hall⟩ := matchEvents_eq_ok.mp hmatch
      -- the message at the place is the one of the ticket, with its two events
      rw [List.getElem?_map, hm] at hi
      have hmd : m.messageDeliveredEvent = i.messageDelivered E := Option.some.inj hi
      have himd := hall m (List.mem_of_getElem? hm)
      rw [hmd] at himd
      have hsame : m = ⟨i.inboxMessageDelivered, i.messageDelivered E⟩ := by
        rw [← hmd, ← himd.unique hfirst]
      rw [hsame, ← hchain, i.ticketId_eq hE] at hid
      exact (Option.some.inj hid).symm
  · have hmatch : matchEvents imds mds = .ok (tickets.map fun i =>
        ⟨i.inboxMessageDelivered, i.messageDelivered E⟩) := by
      refine matchEvents_eq_ok.mpr ⟨by rw [hmds, List.map_map]; rfl, fun m hm => ?_⟩
      obtain ⟨i, hi, rfl⟩ := List.mem_map.mp hm
      exact hfirst i hi
    rw [hmatch]
    exact printTicketIds_eq hE hchain

/-- Both ids are printed, the first one first; and that of a ticket in front of a deposit. -/
theorem getTicketId_submissions_tickets :
    getTicketId Ethers.reference Example.interfaces Example.paddedKeccak 42161 Example.ticketLogs
      = ([(7, (Example.ticketInput Example.submission).retryableId Ethers.reference
          Example.paddedKeccak),
        (8, Example.otherTicket.retryableId Ethers.reference Example.paddedKeccak)], none) ∧
    (getTicketId Ethers.reference Example.interfaces Example.paddedKeccak 42161
        Example.depositLogs).1[0]?
      = some (7, (Example.ticketInput Example.submission).retryableId Ethers.reference
          Example.paddedKeccak) := by
  constructor
  · exact (getTicketId_submissions Ethers.documented_reference Example.receipt_ticketLogs).2
      Example.tickets rfl (by decide) fun _ hi =>
        firstWith_inboxMessageDelivered (by decide) (.swap _ _ _) hi
  · obtain ⟨line, hline⟩ := Option.isSome_iff_exists.mp Example.printed_depositLogs
    have hfirst : FirstWith
        [Example.depositData, (Example.ticketInput Example.submission).inboxMessageDelivered] 7
        (Example.ticketInput Example.submission).inboxMessageDelivered :=
      ⟨[Example.depositData], [], rfl, rfl, List.forall_mem_cons.mpr ⟨by decide, nofun⟩⟩
    rw [hline]
    exact congrArg some
      ((getTicketId_submissions Ethers.documented_reference Example.receipt_depositLogs).1
        (Example.ticketInput Example.submission) 0 line rfl rfl hfirst hline)

end BridgeExecutor
