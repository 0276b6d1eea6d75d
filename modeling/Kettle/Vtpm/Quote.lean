/-
Quotes of the vTPM.  The TPM signs the hash of its PCRs first; the PCRs are
read after that, in several reads, and may have changed in between.  Whoever
verifies a quote compares the signed hash with the PCRs that come with it.
-/
import Kettle.Lib.Outcome
import Kettle.Vtpm.ReadAll

namespace Kettle

namespace Vtpm

/-- `Data::MAX_SIZE`. -/
def dataMaxSize : Nat := 64

/-- What an attestation attests; only the digest of a quote is looked at. -/
inductive AttestInfo where
  | quote (pcrDigest : Digest)
  | other

structure Attest where
  extraData : Bytes
  attested : AttestInfo

inductive Signature where
  | rsaSsa (signature : Bytes)
  | other

structure Quote where
  signature : Bytes
  message : Bytes
  pcrs : List (ByteVec 32)
deriving DecidableEq

inductive QuoteError where
  | tpm (error : Error)
  | dataTooLarge
  | notAQuote
  | wrongSignature
  | pcrBankNotFound
  | pcrRead

inductive VerifyError where
  | tss (error : Error)
  | openSsl (error : String)
  | signatureMismatch
  | nonceMismatch
  | quote (error : QuoteError)
  | pcrMismatch

/-- The libraries of the TPM's structures, of hashes and of signatures. -/
structure QuoteTools where
  marshall : Attest → Except Error Bytes
  unmarshall : Bytes → Except Error Attest
  sha256 : Bytes → ByteVec 32
  /-- Whether a signature of a message is one of the public key. -/
  verifies : Bytes → Bytes → Except String Bool

/-- The bytes that are hashed: one PCR after the other. -/
def concatPcrs (pcrs : List (ByteVec 32)) : Bytes :=
  pcrs.flatMap (·.toList)

namespace Quote

variable (tools : QuoteTools)

def nonce (quote : Quote) : Except QuoteError Bytes :=
  match tools.unmarshall quote.message with
  | .error error => .error (.tpm error)
  | .ok attest => .ok attest.extraData

def verifySignature (quote : Quote) : Except VerifyError Unit :=
  match tools.verifies quote.message quote.signature with
  | .error error => .error (.openSsl error)
  | .ok true => .ok ()
  | .ok false => .error .signatureMismatch

def verifyPcrs (quote : Quote) : Except VerifyError Unit :=
  match tools.unmarshall quote.message with
  | .error error => .error (.tss error)
  | .ok attest =>
      match attest.attested with
      | .other => .error (.quote .notAQuote)
      | .quote pcrDigest =>
          if (tools.sha256 (concatPcrs quote.pcrs)).toList ≠
              pcrDigest.value then .error .pcrMismatch
          else .ok ()

def verify (quote : Quote) (nonce : Bytes) : Except VerifyError Unit := do
  quote.verifySignature tools
  let quoteNonce ←
    match quote.nonce tools with
    | .error error => .error (.quote error)
    | .ok quoteNonce => .ok quoteNonce
  if nonce ≠ quoteNonce then .error .nonceMismatch
  quote.verifyPcrs tools

end Quote

/-- `VTPM_QUOTE_PCR_SLOTS`. -/
def quotePcrSlots : List PcrSlot :=
  (List.finRange 24).map (Fin.castLE (by decide))

/-- The commands of the device, at the time of the quote. -/
structure QuoteDevice where
  newDeviceDirect : Except Error Unit
  trFromTpmPublic : Except Error UInt32
  quote : UInt32 → Bytes → TpmlPcrSelection →
    Except Error (Attest × Signature)

/-- A step whose errors are those of the TPM. -/
def ofTpm {α : Type} : Except Error α → Except QuoteError α
  | .error error => .error (.tpm error)
  | .ok value => .ok value

section GetQuote

variable (tools : QuoteTools) (device : QuoteDevice)

def quoteSelection : Except Error PcrSelectionList :=
  (PcrSelectionListBuilder.new.withSelection .sha256 quotePcrSlots).build

/-- The steps before the PCRs are read: the signature, the message, and what
is to be read. -/
def signQuote (data : Bytes) :
    Outcome QuoteError (Bytes × Bytes × PcrSelectionList) := do
  if dataMaxSize < data.length then .err .dataTooLarge
  let _ ← Outcome.ofExcept (ofTpm device.newDeviceDirect)
  let keyHandle ← Outcome.ofExcept (ofTpm device.trFromTpmPublic)
  let selectionList ← Outcome.ofExcept (ofTpm quoteSelection)
  match selectionList.toTpml with
  | none => .panic
  | some tpml => do
      let (attest, signature) ←
        Outcome.ofExcept (ofTpm (device.quote keyHandle data tpml))
      match attest.attested, signature with
      | .other, _ => .err .notAQuote
      | .quote _, .other => .err .wrongSignature
      | .quote _, .rsaSsa signature => do
          let message ← Outcome.ofExcept (ofTpm (tools.marshall attest))
          .ok (signature, message, selectionList)

/-- The PCRs of the bank, from the lowest slot up. -/
def collectPcrs (data : PcrData) : Except QuoteError (List (ByteVec 32)) :=
  match data.pcrBank? .sha256 with
  | none => .error .pcrBankNotFound
  | some bank => bank.bank.entries.mapM fun entry =>
      match entry.2.toArray32 with
      | .error _ => .error .pcrRead
      | .ok pcr => .ok pcr

/-- `get_quote`, after a number of reads; without a result while it reads. -/
def getQuote (reads : Nat → PcrRead) (data : Bytes) (turns : Nat) :
    Option (Outcome QuoteError Quote) :=
  match signQuote tools device data with
  | .panic => some .panic
  | .err error => some (.err error)
  | .ok (signature, message, selectionList) =>
      match readAll reads selectionList turns with
      | .reading _ _ => none
      | .panicked => some .panic
      | .failed error => some (.err (.tpm error))
      | .done data => some (.ofExcept do
          let pcrs ← collectPcrs data
          .ok ⟨signature, message, pcrs⟩)

end GetQuote

section Verify

variable {tools : QuoteTools} {quote : Quote} {nonce : Bytes}

/-- A quote is verified when its signature is, and its message is a quote
over the nonce and the hash of the PCRs. -/
theorem Quote.verify_eq_ok_iff :
    quote.verify tools nonce = .ok () ↔
      tools.verifies quote.message quote.signature = .ok true ∧
        ∃ attest pcrDigest, tools.unmarshall quote.message = .ok attest ∧
          attest.extraData = nonce ∧
          attest.attested = .quote pcrDigest ∧
          (tools.sha256 (concatPcrs quote.pcrs)).toList =
            pcrDigest.value := by
  unfold verify verifySignature Quote.nonce verifyPcrs
  cases tools.verifies quote.message quote.signature with
  | error error => simp
  | ok verified =>
      cases verified with
      | false => simp
      | true =>
          cases tools.unmarshall quote.message with
          | error error => simp
          | ok attest =>
              obtain ⟨extraData, attested⟩ := attest
              by_cases hnonce : nonce = extraData
              · cases attested with
                | other => simp [hnonce]
                | quote pcrDigest =>
                    by_cases hdigest :
                        (tools.sha256 (concatPcrs quote.pcrs)).toList =
                          pcrDigest.value
                    · simp [hnonce, hdigest]
                    · simp [hnonce, hdigest]
              · simp [hnonce, Ne.symm hnonce]

end Verify

section Concat

theorem length_concatPcrs (pcrs : List (ByteVec 32)) :
    (concatPcrs pcrs).length = 32 * pcrs.length := by
  induction pcrs with
  | nil => rfl
  | cons pcr rest ih =>
      unfold concatPcrs at ih ⊢
      rw [List.flatMap_cons, List.length_append, ih, pcr.toList_length,
        List.length_cons]
      omega

/-- The values of PCRs are told apart by their bytes in a row. -/
theorem concatPcrs_injective : Function.Injective concatPcrs := by
  intro left
  induction left with
  | nil =>
      intro right heq
      have hlen := congrArg List.length heq
      rw [length_concatPcrs, length_concatPcrs, List.length_nil] at hlen
      exact (List.length_eq_zero_iff.mp (by omega)).symm
  | cons pcr rest ih =>
      intro right heq
      cases right with
      | nil =>
          have hlen := congrArg List.length heq
          rw [length_concatPcrs, length_concatPcrs, List.length_cons,
            List.length_nil] at hlen
          omega
      | cons other tail =>
          obtain ⟨hhead, htail⟩ := List.append_inj heq
            (by rw [pcr.toList_length, other.toList_length])
          rw [List.Vector.toList_injective hhead, ih htail]

end Concat

section Collect

/-- A digest of 32 bytes. -/
def Digest.ofArray32 (bytes : ByteVec 32) : Digest :=
  ⟨bytes.toList, by rw [bytes.toList_length]; decide⟩

theorem Digest.toArray32_ofArray32 (bytes : ByteVec 32) :
    (ofArray32 bytes).toArray32 = .ok bytes :=
  dif_pos bytes.toList_length

/-- What a quote hashes: the selected PCRs that are implemented. -/
def Pcrs.selectedBytes (pcrs : Pcrs) (asked : PcrSelectionList) : Bytes :=
  (asked.bankSlots.filterMap pcrs).flatMap (·.value)

/-- How `TPM2_Quote` and the marshalling of its result are documented. -/
structure Quotes (tools : QuoteTools) (device : QuoteDevice)
    (pcrs : Pcrs) : Prop where
  opens : device.newDeviceDirect = .ok ()
  key : ∃ keyHandle, device.trFromTpmPublic = .ok keyHandle
  quotes : ∀ keyHandle data asked tpml,
    device.trFromTpmPublic = .ok keyHandle → data.length ≤ dataMaxSize →
    asked.toTpml = some tpml →
    ∃ attest signature message pcrDigest,
      device.quote keyHandle data tpml = .ok (attest, .rsaSsa signature) ∧
      attest.extraData = data ∧
      attest.attested = .quote pcrDigest ∧
      pcrDigest.value =
        (tools.sha256 (pcrs.selectedBytes asked)).toList ∧
      tools.marshall attest = .ok message ∧
      tools.unmarshall message = .ok attest ∧
      tools.verifies message signature = .ok true

theorem exists_quoteSelection :
    ∃ selectionList, quoteSelection = .ok selectionList ∧
      selectionList.items.length ≤ PcrSelectionList.maxSize ∧
      selectionList.bankSlots =
        quotePcrSlots.map (BankSlot.mk .sha256) :=
  ⟨_, rfl, by decide, by decide⟩

/-- What each bank of the PCRs holds: 32 bytes for each slot of a quote. -/
def Sha256Bank (values : Nat → PcrSlot → ByteVec 32)
    (pcrs : Nat → Pcrs) : Prop :=
  ∀ turn, ∀ slot ∈ quotePcrSlots,
    pcrs turn ⟨.sha256, slot⟩ = some (.ofArray32 (values turn slot))

theorem mem_map_bankSlot {slot : PcrSlot} {slots : List PcrSlot} :
    BankSlot.mk .sha256 slot ∈ slots.map (BankSlot.mk .sha256) ↔
      slot ∈ slots := by
  simp

theorem exists_mapM_toArray32 {values : Nat → PcrSlot → ByteVec 32}
    {turns : Nat} {entries : List (PcrSlot × Digest)}
    (hvalues : ∀ entry ∈ entries, ∃ turn < turns,
      entry.2 = .ofArray32 (values turn entry.1)) :
    ∃ collected,
      entries.mapM (fun entry =>
        match entry.2.toArray32 with
        | .error _ => .error .pcrRead
        | .ok pcr => .ok pcr) = (.ok collected : Except QuoteError _) ∧
      List.Forall₂ (fun slot pcr => ∃ turn < turns, pcr = values turn slot)
        (entries.map Prod.fst) collected := by
  induction entries with
  | nil => exact ⟨[], rfl, .nil⟩
  | cons entry rest ih =>
      rw [List.forall_mem_cons] at hvalues
      obtain ⟨turn, hturn, hvalue⟩ := hvalues.1
      obtain ⟨collected, hok, hall⟩ := ih hvalues.2
      refine ⟨values turn entry.1 :: collected, ?_,
        .cons ⟨turn, hturn, rfl⟩ hall⟩
      rw [List.mapM_cons, hok, hvalue, Digest.toArray32_ofArray32]
      rfl

/-- The PCRs are collected in the order of the slots, each as it was at one of
the reads. -/
theorem collectPcrs_of_read {pcrs : Nat → Pcrs}
    {values : Nat → PcrSlot → ByteVec 32} {list left : PcrSelectionList}
    {data : PcrData} {turns : Nat} (hbank : Sha256Bank values pcrs)
    (hslots : list.bankSlots = quotePcrSlots.map (BankSlot.mk .sha256))
    (hinv : ReadSoFar pcrs list turns left data)
    (hnil : left.bankSlots = []) :
    ∃ collected, collectPcrs data = .ok collected ∧
      List.Forall₂ (fun slot pcr => ∃ turn < turns, pcr = values turn slot)
        quotePcrSlots collected := by
  have hread : ∀ slot, slot ∈ quotePcrSlots → ∃ turn < turns,
      data.digest? ⟨.sha256, slot⟩ =
        some (.ofArray32 (values turn slot)) := by
    intro slot hslot
    obtain ⟨digest, hdigest, turn, hturn, hvalue⟩ := hinv.exists_turn hnil
      (hslots ▸ mem_map_bankSlot.mpr hslot)
    rw [hbank turn slot hslot] at hvalue
    cases hvalue
    exact ⟨turn, hturn, hdigest⟩
  obtain ⟨bank, hfound⟩ : ∃ bank, data.pcrBank? .sha256 = some bank := by
    obtain ⟨turn, -, hdigest⟩ := hread 0 (by decide)
    cases hfound : data.pcrBank? .sha256 with
    | none => simp [PcrData.digest?, hfound] at hdigest
    | some bank => exact ⟨bank, rfl⟩
  have hentry : ∀ slot digest, (slot, digest) ∈ bank.bank.entries ↔
      data.digest? ⟨.sha256, slot⟩ = some digest := by
    intro slot digest
    rw [SortedMap.mem_entries_iff, PcrData.digest?, hfound]
    rfl
  have hmem : ∀ slot, slot ∈ bank.bank.entries.map Prod.fst ↔
      slot ∈ quotePcrSlots := by
    intro slot
    constructor
    · intro hin
      obtain ⟨⟨found, digest⟩, hkept, rfl⟩ := List.mem_map.mp hin
      by_contra hout
      have hnone := (hinv.unread ⟨.sha256, found⟩).mpr (Or.inr fun hasked =>
        hout (mem_map_bankSlot.mp (hslots ▸ hasked)))
      rw [(hentry found digest).mp hkept] at hnone
      cases hnone
    · intro hslot
      obtain ⟨turn, -, hdigest⟩ := hread slot hslot
      exact List.mem_map_of_mem ((hentry slot _).mpr hdigest)
  have hkeys : bank.bank.entries.map Prod.fst = quotePcrSlots := by
    have hperm := (List.perm_ext_iff_of_nodup bank.nodup_keys
      (by decide : quotePcrSlots.Nodup)).mpr hmem
    exact hperm.eq_of_pairwise (fun _ _ _ _ hle hge =>
      absurd hge hle.asymm) (List.pairwise_map.mpr bank.bank.sorted)
      (by decide : quotePcrSlots.Pairwise (· < ·))
  have hvalues : ∀ entry ∈ bank.bank.entries, ∃ turn < turns,
      entry.2 = .ofArray32 (values turn entry.1) := by
    intro entry hin
    obtain ⟨turn, hturn, hdigest⟩ := hread entry.1
      ((hmem _).mp (List.mem_map_of_mem hin))
    rw [(hentry _ _).mp hin] at hdigest
    exact ⟨turn, hturn, Option.some.inj hdigest⟩
  unfold collectPcrs
  rw [hfound, ← hkeys]
  exact exists_mapM_toArray32 hvalues

/-- The bytes that a quote hashes are those of the PCRs in order. -/
theorem selectedBytes_eq {pcrs : Pcrs} {values : BankSlot → ByteVec 32}
    {asked : PcrSelectionList}
    (hbank : ∀ bankSlot ∈ asked.bankSlots,
      pcrs bankSlot = some (.ofArray32 (values bankSlot))) :
    pcrs.selectedBytes asked =
      concatPcrs (asked.bankSlots.map values) := by
  unfold Pcrs.selectedBytes concatPcrs
  generalize asked.bankSlots = bankSlots at hbank
  induction bankSlots with
  | nil => rfl
  | cons bankSlot rest ih =>
      rw [List.forall_mem_cons] at hbank
      rw [List.map_cons, List.filterMap_cons_some hbank.1,
        List.flatMap_cons, ih hbank.2]
      rfl

theorem eq_some_of_bank {pcrs : Nat → Pcrs}
    {values : Nat → PcrSlot → ByteVec 32} {list : PcrSelectionList}
    (hslots : list.bankSlots = quotePcrSlots.map (BankSlot.mk .sha256))
    (hbank : Sha256Bank values pcrs) (turn : Nat) :
    ∀ bankSlot ∈ list.bankSlots,
      pcrs turn bankSlot = some (.ofArray32 (values turn bankSlot.slot)) := by
  intro bankSlot hmem
  rw [hslots, List.mem_map] at hmem
  obtain ⟨slot, hslot, rfl⟩ := hmem
  exact hbank turn slot hslot

theorem implements_of_bank {pcrs : Nat → Pcrs}
    {values : Nat → PcrSlot → ByteVec 32} {list : PcrSelectionList}
    (hslots : list.bankSlots = quotePcrSlots.map (BankSlot.mk .sha256))
    (hbank : Sha256Bank values pcrs) :
    Implements (fun turn => pcrs (turn + 1)) list := by
  intro turn bankSlot hmem
  dsimp only
  rw [eq_some_of_bank hslots hbank (turn + 1) bankSlot hmem]
  rfl

end Collect

section Witness

/-- Structures in their bytes with the length of the nonce first, a hash
that pads, and signatures that repeat the message. -/
def plainTools : QuoteTools where
  marshall attest :=
    match attest.attested with
    | .other => .error (.wrapper .unsupportedParam)
    | .quote pcrDigest =>
        .ok (.ofNat attest.extraData.length ::
          (attest.extraData ++ pcrDigest.value))
  unmarshall message :=
    match message with
    | [] => .error (.wrapper .wrongParamSize)
    | length :: rest =>
        if hfits : (rest.drop length.toNat).length ≤ digestMaxSize then
          .ok ⟨rest.take length.toNat,
            .quote ⟨rest.drop length.toNat, hfits⟩⟩
        else .error (.wrapper .wrongParamSize)
  sha256 := Bytes.zeroPadVec 32
  verifies message signature := .ok (signature = message)

def plainDevice (pcrs : Pcrs) : QuoteDevice where
  newDeviceDirect := .ok ()
  trFromTpmPublic := .ok 0x81000003
  quote _ data tpml := do
    let asked ← PcrSelectionList.ofTpml tpml
    let attest := Attest.mk data
      (.quote (.ofArray32 (plainTools.sha256 (pcrs.selectedBytes asked))))
    let message ← plainTools.marshall attest
    .ok (attest, .rsaSsa message)

theorem unmarshall_plainTools {data : Bytes}
    (hdata : data.length ≤ dataMaxSize) (digest : Digest) :
    plainTools.unmarshall
        (.ofNat data.length :: (data ++ digest.value)) =
      .ok ⟨data, .quote digest⟩ := by
  have hlength : (UInt8.ofNat data.length).toNat = data.length :=
    UInt8.toNat_ofNat_of_lt' (hdata.trans_lt (by decide))
  have hdrop : (data ++ digest.value).drop data.length = digest.value :=
    List.drop_left
  have htake : (data ++ digest.value).take data.length = data :=
    List.take_left
  unfold plainTools
  simp only [hlength, hdrop, htake]
  exact dif_pos digest.fits

theorem quotes_plainDevice (pcrs : Pcrs) :
    Quotes plainTools (plainDevice pcrs) pcrs where
  opens := rfl
  key := ⟨_, rfl⟩
  quotes := by
    intro keyHandle data asked tpml _ hdata htpml
    let digest : Digest :=
      .ofArray32 (plainTools.sha256 (pcrs.selectedBytes asked))
    let message : Bytes := .ofNat data.length :: (data ++ digest.value)
    refine ⟨⟨data, .quote digest⟩, message, message, digest, ?_, rfl, rfl,
      rfl, rfl, unmarshall_plainTools hdata digest, ?_⟩
    · unfold plainDevice
      dsimp only
      rw [PcrSelectionList.ofTpml_of_toTpml htpml]
      rfl
    · exact congrArg Except.ok (decide_eq_true rfl)

/-- Values that change all the time. -/
def countingValues (turn : Nat) (_ : PcrSlot) : ByteVec 32 :=
  .replicate 32 (.ofNat turn)

def filledPcrs (turn : Nat) : Pcrs := fun bankSlot =>
  some (.ofArray32 (countingValues turn bankSlot.slot))

end Witness

section Race

/-- A quote is taken, and holds, for each slot, a value of its PCR at one of
the reads after the signature.  It verifies if these are the values at the
signature, and only then if the two sets of values do not collide. -/
theorem getQuote_verifies_iff {tools : QuoteTools} {device : QuoteDevice}
    {pcrs : Nat → Pcrs} {reads : Nat → PcrRead}
    {values : Nat → PcrSlot → ByteVec 32} {data : Bytes}
    (hdata : data.length ≤ dataMaxSize)
    (hquotes : Quotes tools device (pcrs 0))
    (hreads : ∀ turn, Reads (pcrs (turn + 1)) (reads turn))
    (hbank : Sha256Bank values pcrs) :
    ∃ quote,
      (∀ turns, quotePcrSlots.length < turns →
        getQuote tools device reads data turns = some (.ok quote)) ∧
      List.Forall₂ (fun slot pcr => ∃ turn ≤ quotePcrSlots.length,
        pcr = values (turn + 1) slot) quotePcrSlots quote.pcrs ∧
      (quote.pcrs = quotePcrSlots.map (values 0) →
        quote.verify tools data = .ok ()) ∧
      (Set.InjOn tools.sha256 {concatPcrs quote.pcrs,
          concatPcrs (quotePcrSlots.map (values 0))} →
        quote.verify tools data = .ok () →
        quote.pcrs = quotePcrSlots.map (values 0)) ∧
      ∀ nonce, nonce ≠ data →
        quote.verify tools nonce = .error .nonceMismatch := by
  obtain ⟨list, hlist, hsize, hslots⟩ := exists_quoteSelection
  obtain ⟨tpml, htpml, -⟩ := PcrSelectionList.exists_toTpml hsize
  obtain ⟨keyHandle, hkey⟩ := hquotes.key
  obtain ⟨attest, signature, message, pcrDigest, hquote, hextra, hattested,
    hdigest, hmarshall, hunmarshall, hverifies⟩ :=
    hquotes.quotes keyHandle data list tpml hkey hdata htpml
  have hsign : signQuote tools device data =
      .ok (signature, message, list) := by
    unfold signQuote
    rw [hquotes.opens, hkey, hlist, if_neg (Nat.not_lt.mpr hdata)]
    simp only [ofTpm, Outcome.ofExcept_ok, Outcome.bind_ok, htpml, hquote,
      hattested, hmarshall]
  have hlength : list.bankSlots.length = quotePcrSlots.length := by
    rw [hslots, List.length_map]
  obtain ⟨left, read, hdone, hinv, hnil⟩ := readAll_finishes hsize
    (by rw [hslots]; decide) hreads (implements_of_bank hslots hbank)
  have hbankAfter : Sha256Bank (fun turn => values (turn + 1))
      fun turn => pcrs (turn + 1) := fun turn => hbank (turn + 1)
  obtain ⟨collected, hcollect, hall⟩ :=
    collectPcrs_of_read hbankAfter hslots hinv hnil
  have hhashed : pcrDigest.value = (tools.sha256
      (concatPcrs (quotePcrSlots.map (values 0)))).toList := by
    rw [hdigest, selectedBytes_eq (eq_some_of_bank hslots hbank 0), hslots,
      List.map_map]
    rfl
  have hverify : ∀ nonce,
      Quote.verify tools ⟨signature, message, collected⟩ nonce = .ok () ↔
        nonce = data ∧ tools.sha256 (concatPcrs collected) =
          tools.sha256 (concatPcrs (quotePcrSlots.map (values 0))) := by
    intro nonce
    rw [Quote.verify_eq_ok_iff]
    constructor
    · rintro ⟨-, found, digest, hfound, hnonce, hinfo, hhash⟩
      rw [hunmarshall] at hfound
      cases hfound
      rw [hattested] at hinfo
      cases hinfo
      exact ⟨hnonce.symm.trans hextra,
        List.Vector.toList_injective (hhash.trans hhashed)⟩
    · rintro ⟨rfl, hhash⟩
      exact ⟨hverifies, attest, pcrDigest, hunmarshall, hextra, hattested,
        by rw [hhash, hhashed]⟩
  refine ⟨⟨signature, message, collected⟩, fun turns hturns => ?_, ?_,
    fun heq => ?_, fun hinj hok => ?_, fun nonce hne => ?_⟩
  · unfold getQuote
    rw [hsign]
    dsimp only
    rw [hdone turns (hlength ▸ hturns)]
    dsimp only
    rw [hcollect]
    rfl
  · rw [hlength] at hall
    exact hall.imp fun slot pcr ⟨turn, hturn, heq⟩ =>
      ⟨turn, Nat.lt_succ_iff.mp hturn, heq⟩
  · exact (hverify data).mpr ⟨rfl, by rw [show collected = _ from heq]⟩
  · exact concatPcrs_injective (hinj (Or.inl rfl) (Or.inr rfl)
      ((hverify data).mp hok).2)
  · simp [Quote.verify, Quote.verifySignature, Quote.nonce, hverifies,
      hunmarshall, hextra, hne]

theorem getQuote_verifies_iff_counting :
    ∃ quote,
      (∀ turns, quotePcrSlots.length < turns →
        getQuote plainTools (plainDevice (filledPcrs 0))
          (fun turn => (filledPcrs (turn + 1)).read) [7] turns =
          some (.ok quote)) ∧
      List.Forall₂ (fun slot pcr => ∃ turn ≤ quotePcrSlots.length,
        pcr = countingValues (turn + 1) slot) quotePcrSlots quote.pcrs ∧
      (quote.pcrs = quotePcrSlots.map (countingValues 0) →
        quote.verify plainTools [7] = .ok ()) ∧
      (Set.InjOn plainTools.sha256 {concatPcrs quote.pcrs,
          concatPcrs (quotePcrSlots.map (countingValues 0))} →
        quote.verify plainTools [7] = .ok () →
        quote.pcrs = quotePcrSlots.map (countingValues 0)) ∧
      ∀ nonce, nonce ≠ [7] →
        quote.verify plainTools nonce = .error .nonceMismatch :=
  getQuote_verifies_iff (by decide) (quotes_plainDevice _)
    (fun turn => (filledPcrs (turn + 1)).reads_read) fun _ _ _ => rfl

end Race

section Agreement

/-- A quote that the TPM made, for anyone and over any PCRs. -/
structure QuoteEvent where
  nonce : Bytes
  asked : PcrSelectionList
  pcrs : Pcrs

def QuoteEvent.bytes (event : QuoteEvent) : Bytes :=
  event.pcrs.selectedBytes event.asked

/-- The message is that of the event. -/
def QuoteEvent.Attests (tools : QuoteTools) (event : QuoteEvent)
    (message : Bytes) : Prop :=
  ∃ pcrDigest, tools.unmarshall message =
      .ok ⟨event.nonce, .quote pcrDigest⟩ ∧
    pcrDigest.value = (tools.sha256 event.bytes).toList

/-- The key signs no other quotes than those of the events. -/
def Unforged (tools : QuoteTools) (events : Set QuoteEvent) : Prop :=
  ∀ message signature attest pcrDigest,
    tools.verifies message signature = .ok true →
    tools.unmarshall message = .ok attest →
    attest.attested = .quote pcrDigest →
    ∃ event ∈ events, event.Attests tools message

/-- What is hashed to make the quotes, or to verify one. -/
def hashedBytes (events : Set QuoteEvent) (quote : Quote) : Set Bytes :=
  {bytes | bytes = concatPcrs quote.pcrs ∨
    ∃ event ∈ events, bytes = event.bytes}

variable {tools : QuoteTools} {events : Set QuoteEvent} {quote : Quote}
  {nonce : Bytes}

theorem verify_eq_ok_iff_event (hunforged : Unforged tools events)
    (hinj : Set.InjOn tools.sha256 (hashedBytes events quote)) :
    quote.verify tools nonce = .ok () ↔
      tools.verifies quote.message quote.signature = .ok true ∧
        ∃ event ∈ events, event.Attests tools quote.message ∧
          event.nonce = nonce ∧ event.bytes = concatPcrs quote.pcrs := by
  rw [Quote.verify_eq_ok_iff]
  refine and_congr_right fun hverifies => ?_
  constructor
  · rintro ⟨attest, pcrDigest, hmessage, hnonce, hattested, hdigest⟩
    obtain ⟨event, hevent, found, hfound, hbytes⟩ :=
      hunforged _ _ _ _ hverifies hmessage hattested
    rw [hmessage] at hfound
    cases hfound
    cases hattested
    refine ⟨event, hevent, ⟨pcrDigest, hmessage, hbytes⟩, hnonce, ?_⟩
    exact hinj (Or.inr ⟨event, hevent, rfl⟩) (Or.inl rfl)
      (List.Vector.toList_injective (hbytes.symm.trans hdigest.symm))
  · rintro ⟨event, -, ⟨pcrDigest, hmessage, hdigest⟩, hnonce, hbytes⟩
    exact ⟨_, pcrDigest, hmessage, hnonce, rfl, by rw [hdigest, hbytes]⟩

/-- Whoever delivers a quote: it is verified exactly when it goes back to a
quote that the TPM made with this nonce, and its PCRs are the ones that the TPM
then hashed.  Which slots these were is not compared. -/
theorem verify_agreement (hunforged : Unforged tools events)
    (hinj : Set.InjOn tools.sha256 (hashedBytes events quote)) :
    (quote.verify tools nonce = .ok () ↔
      tools.verifies quote.message quote.signature = .ok true ∧
        ∃ event ∈ events, event.Attests tools quote.message ∧
          event.nonce = nonce ∧ event.bytes = concatPcrs quote.pcrs) ∧
    ∀ values : BankSlot → ByteVec 32, quote.verify tools nonce = .ok () →
      (∀ event ∈ events, event.nonce = nonce →
        ∀ bankSlot ∈ event.asked.bankSlots,
          event.pcrs bankSlot = some (.ofArray32 (values bankSlot))) →
      ∃ event ∈ events, event.nonce = nonce ∧
        quote.pcrs = event.asked.bankSlots.map values := by
  have hiff : quote.verify tools nonce = .ok () ↔ _ :=
    verify_eq_ok_iff_event hunforged hinj
  refine ⟨hiff, fun values hok hvalues => ?_⟩
  obtain ⟨-, event, hevent, -, hnonce, hbytes⟩ := hiff.mp hok
  refine ⟨event, hevent, hnonce, concatPcrs_injective ?_⟩
  rw [← hbytes]
  exact selectedBytes_eq (hvalues event hevent hnonce)

/-- A quote over two slots only. -/
def twoSlotsEvent : QuoteEvent := ⟨[7], twoSlots, filledPcrs 0⟩

def twoSlotsMessage : Bytes :=
  .ofNat twoSlotsEvent.nonce.length ::
    (twoSlotsEvent.nonce ++ (plainTools.sha256 twoSlotsEvent.bytes).toList)

def twoSlotsQuote : Quote :=
  ⟨twoSlotsMessage, twoSlotsMessage, List.replicate 2 (.replicate 32 0)⟩

/-- The key has signed one message. -/
def signedTools : QuoteTools :=
  { plainTools with
    verifies := fun message signature =>
      .ok (message = twoSlotsMessage ∧ signature = twoSlotsMessage) }

theorem unforged_signedTools : Unforged signedTools {twoSlotsEvent} := by
  intro message signature attest pcrDigest hverifies _ _
  obtain ⟨rfl, -⟩ := of_decide_eq_true (Except.ok.inj hverifies)
  have hdata : twoSlotsEvent.nonce.length ≤ dataMaxSize := by decide
  exact ⟨twoSlotsEvent, rfl, _, unmarshall_plainTools hdata
    (.ofArray32 (plainTools.sha256 twoSlotsEvent.bytes)), rfl⟩

theorem injOn_twoSlots : Set.InjOn signedTools.sha256
    (hashedBytes {twoSlotsEvent} twoSlotsQuote) := by
  have hbytes : ∀ bytes ∈ hashedBytes {twoSlotsEvent} twoSlotsQuote,
      bytes = List.replicate 64 0 := by
    rintro bytes (rfl | ⟨event, rfl, rfl⟩) <;> decide
  intro left hleft right hright _
  rw [hbytes left hleft, hbytes right hright]

theorem verify_agreement_twoSlots :
    (twoSlotsQuote.verify signedTools [7] = .ok () ↔
      signedTools.verifies twoSlotsQuote.message twoSlotsQuote.signature =
          .ok true ∧
        ∃ event ∈ ({twoSlotsEvent} : Set QuoteEvent),
          event.Attests signedTools twoSlotsQuote.message ∧
          event.nonce = [7] ∧
          event.bytes = concatPcrs twoSlotsQuote.pcrs) ∧
    ∀ values : BankSlot → ByteVec 32,
      twoSlotsQuote.verify signedTools [7] = .ok () →
      (∀ event ∈ ({twoSlotsEvent} : Set QuoteEvent), event.nonce = [7] →
        ∀ bankSlot ∈ event.asked.bankSlots,
          event.pcrs bankSlot = some (.ofArray32 (values bankSlot))) →
      ∃ event ∈ ({twoSlotsEvent} : Set QuoteEvent), event.nonce = [7] ∧
        twoSlotsQuote.pcrs = event.asked.bankSlots.map values :=
  verify_agreement unforged_signedTools injOn_twoSlots

end Agreement

end Vtpm

end Kettle
