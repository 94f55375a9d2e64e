import BridgeExecutor.Scripts.Arbitrum

/-!
# The id of a retryable ticket

The script reads a submission back from the data of the `InboxMessageDelivered` event and hashes
it together with the chain id, the sender, the message number and the base fee of L1.

A number loses its leading zeros on the way, or gets some, and an address travels as a number;
none of it is lost, because every piece has a field of its own.

* `parseInboxMessageDataField_eq` — the round trip
* `submitRetryableBytes_eq` — the byte strings that are hashed
* `retryableTicket_identifies` — they determine everything that went into them
-/

namespace BridgeExecutor

/-! ## Submissions -/

/-- What is submitted to the inbox. -/
structure Submission where
  dest : Address
  l2CallValue : UInt256
  msgValue : UInt256
  maxSubmissionFee : UInt256
  excessFeeRefundAddress : Address
  callValueRefundAddress : Address
  gasLimit : UInt256
  maxFeePerGas : UInt256
  data : List UInt8
  /-- The event data is a string, and a string has fewer than 2^53 characters. -/
  short : 2 + 2 * (9 * 32 + data.length) < 2 ^ 53

namespace Submission

/-- The words of the event, in order. -/
def words (s : Submission) : List UInt256 :=
  [s.dest.setWidth 256, s.l2CallValue, s.msgValue, s.maxSubmissionFee,
    s.excessFeeRefundAddress.setWidth 256, s.callValueRefundAddress.setWidth 256, s.gasLimit,
    s.maxFeePerGas, BitVec.ofNat 256 s.data.length]

/-- The packed event data: the words, then the data without padding. -/
def eventData (s : Submission) : Text :=
  hexString (Hex.encode (s.words.flatMap (fun w => Words.word w.toNat) ++ s.data))

/-- The submission as the script hands it on. -/
def parsed (E : Ethers) (s : Submission) : InboxMessageData where
  destAddress := E.checksum s.dest
  l2CallValue := s.l2CallValue.toNat
  l1Value := s.msgValue.toNat
  maxSubmissionFee := s.maxSubmissionFee.toNat
  excessFeeRefundAddress := E.checksum s.excessFeeRefundAddress
  callValueRefundAddress := E.checksum s.callValueRefundAddress
  gasLimit := s.gasLimit.toNat
  maxFeePerGas := s.maxFeePerGas.toNat
  data := hexString (Hex.encode s.data)

end Submission

/-- Everything that goes into the id of a ticket. -/
structure TicketInput where
  l2ChainId : Nat
  /-- `BigNumber.from` takes no other numbers. -/
  safe : l2ChainId < 2 ^ 53 - 1
  sender : Address
  messageNumber : UInt256
  l1BaseFee : UInt256
  submission : Submission

/-! ## The round trip -/

section

variable {E : Ethers}

/-- The leading zero bytes of an address come back. -/
theorem addressFromBigNumber_eq (hE : E.Documented) (a : Address) :
    addressFromBigNumber E a.toNat = some (E.checksum a) := by
  have hpos : 0 < 20 := by decide
  have hle := Words.length_shortest_le hpos (toNat_lt_pow a)
  have hpad : List.replicate (2 * 20 - (Hex.encode (Words.shortest a.toNat)).length) '0'
      ++ Hex.encode (Words.shortest a.toNat) = addressDigits a := by
    rw [Hex.length_encode, ← Nat.mul_sub, ← Hex.encode_replicate_zero, ← Hex.encode_append,
      Words.replicate_append_shortest hpos (toNat_lt_pow a), addressDigits]
  rw [addressFromBigNumber, hE.toHexString,
    hE.hexZeroPad _ _ 20 (Hex.decode_encode _) (by rw [Hex.length_encode]; omega),
    Option.bind_some, hpad, hE.getAddress]

theorem length_words (s : Submission) :
    (s.words.flatMap fun w => Words.word w.toNat).length = 9 * 32 := by
  simp [Submission.words]

/-- The data is what follows the words. -/
theorem substring_eventData (s : Submission) :
    substring s.eventData (s.eventData.length - (s.data.length * 2 : Nat))
      = Hex.encode s.data := by
  have hsplit : s.eventData
      = hexString (Hex.encode (s.words.flatMap fun w => Words.word w.toNat))
        ++ Hex.encode s.data := by
    rw [Submission.eventData, Hex.encode_append]
    rfl
  have hhead : (hexString (Hex.encode (s.words.flatMap fun w => Words.word w.toNat))).length
      = 578 := by
    rw [hexString, List.length_cons, List.length_cons, Hex.length_encode, length_words]
  have hstart : ((578 + 2 * s.data.length : Nat) : Int) - (s.data.length * 2 : Nat)
      = (578 : Nat) := by
    omega
  rw [substring, hsplit, List.length_append, hhead, Hex.length_encode, hstart, Int.toNat_natCast]
  exact List.drop_left' hhead

/-- **The script reads back what was submitted.** -/
theorem parseInboxMessageDataField_eq (hE : E.Documented) (s : Submission) :
    parseInboxMessageDataField E s.eventData = some (s.parsed E) := by
  have hwords : E.decodeUint256s 9 s.eventData = some (s.words.map fun w => (w.toNat : Int)) :=
    hE.decodeUint256s s.words s.data
  have haddress (a : Address) : (a.setWidth 256).toNat = a.toNat :=
    BitVec.toNat_setWidth_of_le (by decide)
  have hlength : (BitVec.ofNat 256 s.data.length).toNat = s.data.length := by
    have := s.short
    rw [BitVec.toNat_ofNat, Nat.mod_eq_of_lt (by omega)]
  have hlist : E.decodeUint256s 9 s.eventData
      = some [(s.dest.toNat : Int), s.l2CallValue.toNat, s.msgValue.toNat,
        s.maxSubmissionFee.toNat, s.excessFeeRefundAddress.toNat,
        s.callValueRefundAddress.toNat, s.gasLimit.toNat, s.maxFeePerGas.toNat,
        s.data.length] := by
    rw [hwords]
    simp only [Submission.words, List.map_cons, List.map_nil, haddress, hlength]
  have hnumber : E.toNumber ((s.data.length : Int) * 2)
      = some ((s.data.length * 2 : Nat) : Int) := by
    have hshort := s.short
    rw [← hE.toNumber (s.data.length * 2) (by omega)]
    rfl
  rw [parseInboxMessageDataField, hlist]
  dsimp only
  rw [addressFromBigNumber_eq hE, addressFromBigNumber_eq hE, addressFromBigNumber_eq hE,
    hnumber]
  simp only [Option.bind_some]
  rw [substring_eventData]
  rfl

/-! ## What is hashed -/

/-- A number without its leading zeros. -/
def stripped (n : Nat) : List UInt8 := (Words.shortest n).dropWhile (· = 0)

theorem ofBytes_stripped (n : Nat) : Words.ofBytes (stripped n) = n := by
  rw [stripped, Words.ofBytes_dropWhile, Words.ofBytes_shortest]

theorem stripped_inj {n m : Nat} (h : stripped n = stripped m) : n = m := by
  rw [← ofBytes_stripped n, h, ofBytes_stripped]

theorem length_stripped_le {n : Nat} (h : n < 2 ^ 256) : (stripped n).length ≤ 32 := by
  have hpow : (256 : Nat) ^ 32 = 2 ^ 256 := by decide
  have hle : (Words.shortest n).length ≤ 32 :=
    Words.length_shortest_le (by decide) (by rw [hpow]; exact h)
  have hdrop := (List.dropWhile_sublist (· = 0) (l := Words.shortest n)).length_le
  exact Nat.le_trans hdrop hle

theorem formatNumber_eq (hE : E.Documented) (n : Nat) :
    formatNumber E n = some (stripped n) := by
  rw [formatNumber, hE.toHexString, hE.stripZeros, stripped]

theorem arrayify_checksum (hE : E.Documented) (a : Address) :
    E.arrayify (E.checksum a) = some (Words.bigEndian 20 a.toNat) := by
  obtain ⟨d, hd, hbytes⟩ := hE.checksum a
  rw [hd, hE.arrayify d _ hbytes]

/-- The message number is filled up to a word. -/
def padded (n : Nat) : List UInt8 := List.replicate (32 - (stripped n).length) 0 ++ stripped n

theorem padded_inj {n m : Nat} (h : padded n = padded m) : n = m := by
  have hbytes := congrArg Words.ofBytes h
  rw [padded, padded, Words.ofBytes_replicate_append, Words.ofBytes_replicate_append,
    ofBytes_stripped, ofBytes_stripped] at hbytes
  exact hbytes

/-- The byte strings of the fields, in the order of the transaction. -/
def TicketInput.fields (i : TicketInput) : List (List UInt8) :=
  [stripped i.l2ChainId, padded i.messageNumber.toNat, Words.bigEndian 20 i.sender.toNat,
    stripped i.l1BaseFee.toNat, stripped i.submission.msgValue.toNat,
    stripped i.submission.maxFeePerGas.toNat, stripped i.submission.gasLimit.toNat,
    Words.bigEndian 20 i.submission.dest.toNat, stripped i.submission.l2CallValue.toNat,
    Words.bigEndian 20 i.submission.callValueRefundAddress.toNat,
    stripped i.submission.maxSubmissionFee.toNat,
    Words.bigEndian 20 i.submission.excessFeeRefundAddress.toNat, i.submission.data]

/-- The numbers lose their zeros, and the message number gets its own back. -/
theorem submitRetryableFields_eq (hE : E.Documented) (i : TicketInput) :
    submitRetryableFields E i.l2ChainId (E.checksum i.sender) i.messageNumber.toNat
      i.l1BaseFee.toNat (i.submission.parsed E) =
    some [.bytes (stripped i.l2ChainId), .bytes (padded i.messageNumber.toNat),
      .hex (E.checksum i.sender), .bytes (stripped i.l1BaseFee.toNat),
      .bytes (stripped i.submission.msgValue.toNat),
      .bytes (stripped i.submission.maxFeePerGas.toNat),
      .bytes (stripped i.submission.gasLimit.toNat), .hex (E.checksum i.submission.dest),
      .bytes (stripped i.submission.l2CallValue.toNat),
      .hex (E.checksum i.submission.callValueRefundAddress),
      .bytes (stripped i.submission.maxSubmissionFee.toNat),
      .hex (E.checksum i.submission.excessFeeRefundAddress),
      .hex (hexString (Hex.encode i.submission.data))] := by
  have hpad : E.zeroPad (stripped i.messageNumber.toNat) 32
      = some (padded i.messageNumber.toNat) :=
    hE.zeroPad _ 32 (length_stripped_le i.messageNumber.isLt)
  rw [submitRetryableFields, Submission.parsed]
  simp only [formatNumber_eq hE, Option.bind_some, hpad]

theorem submitRetryableBytes_eq (hE : E.Documented) (i : TicketInput) :
    submitRetryableBytes E i.l2ChainId (E.checksum i.sender) i.messageNumber.toNat
      i.l1BaseFee.toNat (i.submission.parsed E) = some i.fields := by
  have hdata : E.arrayify (hexString (Hex.encode i.submission.data)) = some i.submission.data :=
    hE.arrayify _ _ (Hex.decode_encode _)
  rw [submitRetryableBytes, submitRetryableFields_eq hE, Option.bind_some]
  simp only [List.mapM_cons, List.mapM_nil, BytesLike.arrayify, arrayify_checksum hE, hdata,
    Option.pure_def, Option.bind_eq_bind, Option.bind_some]
  rw [TicketInput.fields]

/-- **No two inputs have the same fields.** -/
theorem fields_injective {i i' : TicketInput} (h : i.fields = i'.fields) : i = i' := by
  have hword {x y : UInt256} (hxy : stripped x.toNat = stripped y.toNat) : x = y :=
    BitVec.eq_of_toNat_eq (stripped_inj hxy)
  have haddress {x y : Address}
      (hxy : Words.bigEndian 20 x.toNat = Words.bigEndian 20 y.toNat) : x = y :=
    BitVec.eq_of_toNat_eq (Words.bigEndian_inj (toNat_lt_pow x) (toNat_lt_pow y) hxy)
  obtain ⟨chain, safe, sender, number, fee, s⟩ := i
  obtain ⟨chain', safe', sender', number', fee', s'⟩ := i'
  obtain ⟨dest, l2CallValue, msgValue, maxSubmissionFee, excessFee, callValue, gasLimit,
    maxFeePerGas, data, short⟩ := s
  obtain ⟨dest', l2CallValue', msgValue', maxSubmissionFee', excessFee', callValue', gasLimit',
    maxFeePerGas', data', short'⟩ := s'
  simp only [TicketInput.fields, List.cons.injEq, and_true] at h
  obtain ⟨h1, h2, h3, h4, h5, h6, h7, h8, h9, h10, h11, h12, h13⟩ := h
  obtain rfl := stripped_inj h1
  obtain rfl := BitVec.eq_of_toNat_eq (padded_inj h2)
  obtain rfl := haddress h3
  obtain rfl := hword h4
  obtain rfl := hword h5
  obtain rfl := hword h6
  obtain rfl := hword h7
  obtain rfl := haddress h8
  obtain rfl := hword h9
  obtain rfl := haddress h10
  obtain rfl := hword h11
  obtain rfl := haddress h12
  obtain rfl := h13
  rfl

/-- The fields are short enough for lengths of eight bytes: twelve fit into a word each, and the
last one is the data. -/
theorem fields_small (i : TicketInput) :
    i.fields.flatten.length + 9 * i.fields.length < 2 ^ 64 := by
  have hpad : (padded i.messageNumber.toNat).length ≤ 32 := by
    have hle := length_stripped_le i.messageNumber.isLt
    rw [padded, List.length_append, List.length_replicate]
    omega
  have hword (x : UInt256) : (stripped x.toNat).length ≤ 32 := length_stripped_le x.isLt
  have haddress (a : Address) : (Words.bigEndian 20 a.toNat).length ≤ 32 := by
    rw [Words.length_bigEndian]
    decide
  have hchain : (stripped i.l2ChainId).length ≤ 32 :=
    length_stripped_le (Nat.lt_trans i.safe (by decide))
  have hheads : ∀ b ∈ i.fields.dropLast, b.length ≤ 32 := by
    simp only [TicketInput.fields, List.dropLast_cons_cons, List.dropLast_singleton,
      List.forall_mem_cons]
    exact ⟨hchain, hpad, haddress _, hword _, hword _, hword _, hword _, haddress _, hword _,
      haddress _, hword _, haddress _, nofun⟩
  have hsplit : i.fields = i.fields.dropLast ++ [i.submission.data] := rfl
  have hcount : i.fields.dropLast.length = 12 := rfl
  have hlen := Rlp.length_flatten_le hheads
  have hdata := i.submission.short
  rw [hcount] at hlen
  rw [hsplit, List.flatten_append, List.length_append, List.length_append, hcount,
    List.flatten_singleton, List.length_singleton]
  omega

/-- The fields that the script computes from the event, as byte strings. -/
def TicketInput.bytes (E : Ethers) (i : TicketInput) : Option (List (List UInt8)) :=
  (parseInboxMessageDataField E i.submission.eventData).bind
    (submitRetryableBytes E i.l2ChainId (E.checksum i.sender) i.messageNumber.toNat
      i.l1BaseFee.toNat)

/-- What it hashes. -/
def TicketInput.preimage (E : Ethers) (i : TicketInput) : Option (List UInt8) :=
  (parseInboxMessageDataField E i.submission.eventData).bind
    (submitRetryablePreimage E i.l2ChainId (E.checksum i.sender) i.messageNumber.toNat
      i.l1BaseFee.toNat)

theorem TicketInput.bytes_eq (hE : E.Documented) (i : TicketInput) : i.bytes E = some i.fields := by
  rw [TicketInput.bytes, parseInboxMessageDataField_eq hE, Option.bind_some,
    submitRetryableBytes_eq hE]

theorem TicketInput.preimage_eq (hE : E.Documented) (i : TicketInput) :
    i.preimage E = some (0x69 :: E.rlpEncode i.fields) := by
  rw [TicketInput.preimage, parseInboxMessageDataField_eq hE, Option.bind_some,
    submitRetryablePreimage, submitRetryableBytes_eq hE]
  rfl

/--
**The id of a ticket is computed from the message, and identifies it.**

The script reads back every submission, and two inputs that differ in anything differ in the
fields and in the bytes that are hashed.
-/
theorem retryableTicket_identifies (hE : E.Documented) :
    (∀ s : Submission, parseInboxMessageDataField E s.eventData = some (s.parsed E)) ∧
    (∀ i : TicketInput, ∃ l, i.bytes E = some l) ∧
    (∀ i i' : TicketInput, i.bytes E = i'.bytes E → i = i') ∧
    ∀ i i' : TicketInput, i.preimage E = i'.preimage E → i = i' := by
  refine ⟨parseInboxMessageDataField_eq hE, fun i => ⟨_, i.bytes_eq hE⟩, ?_, ?_⟩
  · intro i i' h
    rw [i.bytes_eq hE, i'.bytes_eq hE] at h
    exact fields_injective (Option.some.inj h)
  · intro i i' h
    rw [i.preimage_eq hE, i'.preimage_eq hE] at h
    have hrlp := (List.cons.inj (Option.some.inj h)).2
    exact fields_injective (hE.rlpEncode_inj _ _ (fields_small i) (fields_small i') hrlp)

end

namespace Example

/-- A submission with a zero, numbers that end in zero bytes, an address that starts with them,
and no data. -/
def submission : Submission where
  dest := 0x2222222222222222222222222222222222222222
  l2CallValue := 0
  msgValue := 256
  maxSubmissionFee := 65536
  excessFeeRefundAddress := 9
  callValueRefundAddress := 0x1111111111111111111111111111111111111111
  gasLimit := 21000
  maxFeePerGas := 1
  data := []
  short := by decide

def ticketInput (s : Submission) : TicketInput := ⟨42161, by decide, 0x33, 7, 100, s⟩

end Example

/-- The example is read back, and its id differs from that of the same message with a value. -/
theorem retryableTicket_identifies_submission :
    parseInboxMessageDataField Ethers.reference Example.submission.eventData = some
      { destAddress := "0x2222222222222222222222222222222222222222".toList
        l2CallValue := 0
        l1Value := 256
        maxSubmissionFee := 65536
        excessFeeRefundAddress := "0x0000000000000000000000000000000000000009".toList
        callValueRefundAddress := "0x1111111111111111111111111111111111111111".toList
        gasLimit := 21000
        maxFeePerGas := 1
        data := "0x".toList } ∧
    (Example.ticketInput Example.submission).preimage Ethers.reference
      ≠ (Example.ticketInput { Example.submission with l2CallValue := 1 }).preimage
          Ethers.reference := by
  obtain ⟨hparse, -, -, hpreimage⟩ := retryableTicket_identifies Ethers.documented_reference
  refine ⟨(hparse _).trans (by decide +kernel), fun h => ?_⟩
  have hvalue := congrArg (fun i => i.submission.l2CallValue) (hpreimage _ _ h)
  exact absurd hvalue (by decide)

end BridgeExecutor
