import Solonpad.JsonValues

/-!
`validateDepositQuote` of `keepers/v3/lib/relay.mjs`: what a keeper proves of a quote from an untrusted service before
it signs for the deposit. Every accepted quote describes an order that takes the whole amount from the user and pays
the recipient; that it does nothing else is checked of the first refund on the origin chain and of calls that come as
an array.
-/

namespace Solonpad.DepositQuote

open Checked JsonValues

/-- `CHAIN_NAMES`. -/
def chainNames : Nat → Option String
  | 5042 => some "arc"
  | 4663 => some "robinhood"
  | 421614 => some "arbitrum-sepolia"
  | 5042002 => some "arc-testnet"
  | _ => none

/-- `expect`: the amount in units of the origin chain, `minOut` in units of the destination chain. -/
structure Expectation where
  user : String
  recipient : String
  amount : Nat
  originChainId : Nat
  destinationChainId : Nat
  destinationCurrency : String
  minOut : Option Int
  nativeScale : Option Nat
  paymentCurrency : Option String

structure Validated where
  orderId : String
  requestId : Value
  expectedOut : Int
  minimumOut : Int
  deadline : Number

def emptyObject : Value := some (.object [])

def emptyArray : Value := some (.array [])

def number (value : Int) : Value := some (.number (.finite value))

/-- `lc`. -/
def lc (host : Host) (a : Value) : Script String := lowered host a

/-- `new RelayRejected(reason)`. -/
def relayRejected (reason : Script String) : Script String := do
  let text ← reason
  pure ("relay quote rejected: " ++ text)

/-- The message's beginning, then a value of the quote. -/
def saying (host : Host) (text : String) (value : Value) : Script String := do
  let shown ← display host value
  pure (text ++ shown)

/-- `/^0x[0-9a-fA-F]{64}$/`. -/
def isWord (text : String) : Bool :=
  match text.toList with
  | '0' :: 'x' :: digits => digits.length == 64 && digits.all isHex
  | _ => false

/-- `/^0x0{64}$/`. -/
def isZeroWord (text : String) : Bool :=
  match text.toList with
  | '0' :: 'x' :: digits => digits.length == 64 && digits.all (· == '0')
  | _ => false

def orderIdOf (v2 : Value) : Script String :=
  match chain v2 "orderId" with
  | some (.string orderId) => do
    insist (isWord orderId = true ∧ isZeroWord orderId = false) (relayRejected (pure "no protocol.v2.orderId"))
    pure orderId
  | _ => raise (relayRejected (pure "no protocol.v2.orderId"))

/-- The first of a list read from a property that has to hold one. -/
def soleOf (host : Host) (owner : Value) (name expected : String) : Script Value := do
  let read ← get owner name
  let list := coalesce read emptyArray
  let length ← get list "length"
  insist (isOne length = true) (relayRejected (saying host ("expected " ++ expected ++ ", got ") length))
  getFirst list

/-- A property that has to hold an address, up to the case of its letters. -/
def checkAddress (host : Host) (owner : Value) (name expected : String) (message : Value → Script String) :
    Script Unit := do
  let address ← get owner name
  let text ← lc host address
  insist (text = host.lower expected) (relayRejected (message address))

/-- The token of the payment, checked where one is expected. -/
def checkCurrency (host : Host) (pay : Value) (paymentCurrency : String) : Script Unit :=
  if paymentCurrency = "" then pure ()
  else checkAddress host pay "currency" paymentCurrency fun currency => do
    let text ← saying host "payment currency " currency
    pure (text ++ " != " ++ paymentCurrency)

def quotient (amount scale : Nat) : Script Nat :=
  if scale = 0 then throw (.revert .rangeError) else pure (amount / scale)

def checkPayment (host : Host) (input : Value) (expect : Expectation) : Script Unit := do
  let payment ← get input "payment"
  let pay := coalesce payment emptyObject
  let chainId ← get pay "chainId"
  insist (isName chainId (chainNames expect.originChainId) = true)
    (relayRejected (saying host "payment chain " chainId))
  checkCurrency host pay (expect.paymentCurrency.getD "")
  let scale := expect.nativeScale.getD 1
  let amount ← get pay "amount"
  let value ← bigInt host (coalesce amount (number (-1)))
  let due ← quotient expect.amount scale
  insist (value = due) (relayRejected do
    let text ← saying host "payment amount " amount
    pure (text ++ " != " ++ toString expect.amount ++ "/" ++ toString scale))

/-- `refunds.find(r => r.chainId === originName)`. -/
def findRefund (originName : Option String) : List Json → Script Value
  | [] => pure none
  | r :: rest => do
    let chainId ← get (some r) "chainId"
    if isName chainId originName = true then pure (some r) else findRefund originName rest

def checkRefunds (host : Host) (input : Value) (expect : Expectation) : Script Unit := do
  let read ← get input "refunds"
  match coalesce read emptyArray with
  | some (.array refunds) => do
    let originRefund ← findRefund (chainNames expect.originChainId) refunds
    let message := saying host "origin refund recipient " (chain originRefund "recipient")
    if truthy originRefund = true then
      checkAddress host originRefund "recipient" expect.user fun _ => message
    else raise (relayRejected message)
  | _ => typeError

/-- The checks of `orderData.output`, which end in its only payment. -/
def checkOutput (host : Host) (out : Value) (expect : Expectation) : Script Value := do
  let chainId ← get out "chainId"
  insist (isName chainId (chainNames expect.destinationChainId) = true)
    (relayRejected (saying host "output chain " chainId))
  let calls ← get out "calls"
  insist ((elements calls).isEmpty = true)
    (relayRejected (pure "destination calls present (2a needs a plain transfer)"))
  let pay ← soleOf host out "payments" "one output payment"
  checkAddress host pay "recipient" expect.recipient (saying host "output recipient ")
  checkAddress host pay "currency" expect.destinationCurrency (saying host "output currency ")
  pure pay

/-- A party of `details`, checked where it is given. -/
def checkParty (host : Host) (details : Value) (name expected : String) : Script Unit := do
  let party ← get details name
  if truthy party = true then checkAddress host details name expected (saying host (name ++ " ")) else pure ()

def checkMinOut (expected : Int) : Option Int → Script Unit
  | some minOut => insist (minOut ≤ expected)
    (relayRejected (pure ("expected out " ++ toString expected ++ " < " ++ toString minOut)))
  | none => pure ()

def validateDepositQuote (host : Host) (quote : Value) (expect : Expectation) : Script Validated := do
  insist ((quote.getD .null).mentions "lifi" = false) (relayRejected (pure "lifi/lifiIntents route"))
  let v2 := chain (chain quote "protocol") "v2"
  let orderId ← orderIdOf v2
  let orderData ← get v2 "orderData"
  let od := coalesce orderData emptyObject
  let input ← soleOf host od "inputs" "one input"
  checkPayment host input expect
  checkRefunds host input expect
  let output ← get od "output"
  let out := coalesce output emptyObject
  let pay ← checkOutput host out expect
  let read ← get quote "details"
  let details := coalesce read emptyObject
  checkParty host details "recipient" expect.recipient
  checkParty host details "sender" expect.user
  let currencyOut := chain details "currencyOut"
  let expectedAmount ← get pay "expectedAmount"
  let expected ← bigInt host (coalesce (coalesce expectedAmount (chain currencyOut "amount")) (number 0))
  let minimumAmount ← get pay "minimumAmount"
  let minimum ← bigInt host (coalesce (coalesce minimumAmount (chain currencyOut "minimumAmount")) (number 0))
  checkMinOut expected expect.minOut
  let requestId ← get quote "requestId"
  let stepRequestId := chain (chainFirst (chain quote "steps")) "requestId"
  let read ← get out "deadline"
  let deadline ← toNumber host (coalesce read (number 0))
  pure ⟨orderId, coalesce (coalesce requestId stepRequestId) (some .null), expected, minimum, deadline⟩

/-! What an order does, read off the quote. -/

def orderData (quote : Value) : Value := path quote ["protocol", "v2", "orderData"]

/-- The value names the address, as texts are compared. -/
def Names (host : Host) (value : Value) (address : String) : Prop := lowered host value = .ok (host.lower address)

instance (host : Host) (value : Value) (address : String) : Decidable (Names host value address) :=
  inferInstanceAs (Decidable (lowered host value = .ok (host.lower address)))

/-- A text of 32 bytes in hexadecimal, not all zero. -/
def NonZeroWord (text : String) : Prop :=
  ∃ ds n, text.toList = '0' :: 'x' :: ds ∧ ds.length = 64 ∧ digits 16 ds = some n ∧ 0 < n ∧ n < 2 ^ 256

/-- A refund listed for the chain goes to the user. -/
def RefundsUser (host : Host) (origin user : String) (refund : Json) : Prop :=
  chain (some refund) "chainId" = some (.string origin) → Names host (chain (some refund) "recipient") user

/-- The input pays the amount expected on the origin chain, and what is refunded there goes to the user. -/
structure PaysIn (host : Host) (expect : Expectation) (origin : String) (input : Json) : Prop where
  chainId : path (some input) ["payment", "chainId"] = some (.string origin)
  amount : bigInt host (path (some input) ["payment", "amount"]) =
    .ok (expect.amount / expect.nativeScale.getD 1 : Nat)
  currency : ∀ token, expect.paymentCurrency = some token → token ≠ "" →
    Names host (path (some input) ["payment", "currency"]) token
  refunds : ∀ refund ∈ elements (chain (some input) "refunds"), RefundsUser host origin expect.user refund

/-- No call is listed: the property is missing, `null` or an empty array. -/
def NoCalls (calls : Value) : Prop := calls = none ∨ calls = some .null ∨ calls = some (.array [])

structure PaysOut (host : Host) (expect : Expectation) (destination : String) (output : Value) : Prop where
  chainId : chain output "chainId" = some (.string destination)
  payment : ∃ pay, chain output "payments" = some (.array [pay]) ∧
    Names host (chain (some pay) "recipient") expect.recipient ∧
    Names host (chain (some pay) "currency") expect.destinationCurrency
  calls : NoCalls (chain output "calls")

/-- The output expected: of the payment, or of the quote where the payment lists none. -/
def expectedOut (host : Host) (quote : Value) : Script Int :=
  let pay := chainFirst (path (orderData quote) ["output", "payments"])
  bigInt host (coalesce (coalesce (chain pay "expectedAmount") (path quote ["details", "currencyOut", "amount"]))
    (number 0))

/-- The order does what was expected and nothing else. -/
structure Sound (host : Host) (quote : Value) (expect : Expectation) (origin destination : String) : Prop where
  input : ∃ input, chain (orderData quote) "inputs" = some (.array [input]) ∧ PaysIn host expect origin input
  output : PaysOut host expect destination (chain (orderData quote) "output")
  minOut : ∀ least, expect.minOut = some least → ∃ out, expectedOut host quote = .ok out ∧ least ≤ out
  orderId : ∃ text, path quote ["protocol", "v2", "orderId"] = some (.string text) ∧ NonZeroWord text

def listedFor (origin : String) (refund : Json) : Bool := isString (chain (some refund) "chainId") origin

/-- The refunds listed for a chain. -/
def refundsOn (origin : String) (refunds : List Json) : List Json := refunds.filter (listedFor origin)

def laterRefunds (origin : String) (input : Value) : List Json :=
  (refundsOn origin (elements (chain input "refunds"))).tail

/-- What no check covers: lists that are arrays, and refunds after the first. -/
structure Listed (host : Host) (quote : Value) (user origin : String) : Prop where
  inputs : IsArray (chain (orderData quote) "inputs")
  payments : IsArray (path (orderData quote) ["output", "payments"])
  calls : ∀ calls, path (orderData quote) ["output", "calls"] = some calls →
    calls = .null ∨ IsArray (some calls)
  refunds : ∀ refund ∈ laterRefunds origin (chainFirst (chain (orderData quote) "inputs")),
    Names host (chain (some refund) "recipient") user

/-! What each check leaves known. -/

variable {host : Host} {quote owner v2 input out : Value} {expect : Expectation}
  {origin destination name : String} {done : Unit} {refunds : List Json}

theorem nonZeroWord_of {text : String} (word : isWord text = true) (some_digit : isZeroWord text = false) :
    NonZeroWord text := by
  unfold isWord at word
  split at word
  · rename_i ds shape
    simp only [Bool.and_eq_true, beq_iff_eq, List.all_eq_true] at word
    obtain ⟨length, hex⟩ := word
    have nonzero : ¬ ∀ c ∈ ds, c = '0' := by
      intro zeros
      have zero : isZeroWord text = true := by
        simp only [isZeroWord, shape, length, Bool.and_eq_true, beq_iff_eq, List.all_eq_true]
        exact ⟨trivial, zeros⟩
      exact absurd zero (by simp [some_digit])
    obtain ⟨n, read, bounds⟩ := digits_word length hex nonzero
    exact ⟨ds, n, shape, length, read, bounds⟩
  · simp at word

theorem orderIdOf_ok {orderId : String} (read : orderIdOf v2 = .ok orderId) :
    chain v2 "orderId" = some (.string orderId) ∧ NonZeroWord orderId := by
  unfold orderIdOf at read
  split at read
  · rename_i text found
    simp only [bind_ok, insist_ok, pure_ok] at read
    obtain ⟨-, ⟨word, some_digit⟩, rfl⟩ := read
    exact ⟨found, nonZeroWord_of word some_digit⟩
  · simp [raise_ok] at read

/-- Where the property holds an array, the first of the list is all of it. -/
theorem soleOf_ok {expected : String} {first : Value} (read : soleOf host owner name expected = .ok first) :
    first = chainFirst (chain owner name) ∧
      (IsArray (chain owner name) → ∃ item, chain owner name = some (.array [item]) ∧ first = some item) := by
  simp only [soleOf, bind_ok, insist_ok] at read
  obtain ⟨value, got, length, sized, -, one, picked⟩ := read
  obtain rfl := get_ok got
  obtain rfl := get_ok sized
  have present : coalesce (chain owner name) emptyArray = chain owner name := by
    unfold coalesce at one ⊢
    split at one
    · exact absurd one (by decide)
    · exact absurd one (by decide)
    · rename_i json filled shape
      exact shape.symm
  rw [present] at one picked
  have first_chain : first = chainFirst (chain owner name) := by
    unfold getFirst at picked
    split at picked
    · simp [typeError, throw_ok] at picked
    · simp [typeError, throw_ok] at picked
    · rename_i json filled shape
      rw [pure_ok] at picked
      rw [← picked, shape]
      cases json with
      | null => exact absurd rfl filled
      | _ => rfl
  refine ⟨first_chain, fun array => ?_⟩
  obtain ⟨item, sole⟩ := sole_element array one
  exact ⟨item, sole, by rw [first_chain, sole]; rfl⟩

theorem checkAddress_ok {expected : String} {message : Value → Script String}
    (passed : checkAddress host owner name expected message = .ok done) : Names host (chain owner name) expected := by
  simp only [checkAddress, bind_ok, insist_ok] at passed
  obtain ⟨address, got, text, shown, rfl⟩ := passed
  obtain rfl := get_ok got
  exact shown

theorem isName_some {value : Value} {text : String} (same : isName value (some text) = true) :
    value = some (.string text) := isString_iff.mp same

theorem coalesce_of_bigInt {value : Value} {amount : Nat}
    (read : bigInt host (coalesce value (number (-1))) = .ok (amount : Int)) : bigInt host value = .ok (amount : Int) := by
  unfold coalesce at read
  split at read
  · exact absurd read (by simp [number, bigInt, pure, Except.pure])
  · exact absurd read (by simp [number, bigInt, pure, Except.pure])
  · exact read

theorem checkPayment_ok {item : Json} (known : chainNames expect.originChainId = some origin)
    (passed : checkPayment host (some item) expect = .ok done) :
    path (some item) ["payment", "chainId"] = some (.string origin) ∧
    bigInt host (path (some item) ["payment", "amount"]) = .ok (expect.amount / expect.nativeScale.getD 1 : Nat) ∧
    ∀ token, expect.paymentCurrency = some token → token ≠ "" →
      Names host (path (some item) ["payment", "currency"]) token := by
  simp only [checkPayment, bind_ok, insist_ok, known] at passed
  obtain ⟨payment, got, chainId, gotChain, -, named, _, currency, amount, gotAmount, value, read, due, whole, paid⟩ :=
    passed
  have share : due = expect.amount / expect.nativeScale.getD 1 := by
    simp only [quotient, ite_ok, throw_ok, pure_ok] at whole
    tauto
  obtain rfl := get_ok got
  obtain rfl := get_ok gotChain
  obtain rfl := get_ok gotAmount
  rw [emptyObject, chain_coalesce] at named read
  rw [paid, share] at read
  refine ⟨isName_some named, coalesce_of_bigInt read, fun token given filled => ?_⟩
  rw [given, Option.getD_some, checkCurrency, if_neg filled] at currency
  have shown := checkAddress_ok currency
  rwa [emptyObject, chain_coalesce] at shown

theorem findRefund_ok {found : Value} (search : findRefund (some origin) refunds = .ok found) :
    found = (refundsOn origin refunds).head? := by
  induction refunds with
  | nil =>
    rw [findRefund, pure_ok] at search
    exact search.symm
  | cons r rest ih =>
    simp only [findRefund, bind_ok] at search
    obtain ⟨chainId, got, search⟩ := search
    obtain rfl := get_ok got
    rw [ite_ok] at search
    rcases search with ⟨here, picked⟩ | ⟨other, later⟩
    · have listed : listedFor origin r = true := here
      rw [pure_ok] at picked
      rw [refundsOn, List.filter_cons_of_pos listed, ← picked, List.head?_cons]
    · have skipped : ¬ listedFor origin r = true := other
      rw [ih later, refundsOn, refundsOn, List.filter_cons_of_neg skipped]

/-- A first refund is listed for the chain, and it goes to the user. -/
theorem checkRefunds_ok {item : Json} (known : chainNames expect.originChainId = some origin)
    (passed : checkRefunds host (some item) expect = .ok done) :
    ∃ first later, refundsOn origin (elements (chain (some item) "refunds")) = first :: later ∧
      Names host (chain (some first) "recipient") expect.user := by
  simp only [checkRefunds, bind_ok, known] at passed
  obtain ⟨value, got, passed⟩ := passed
  obtain rfl := get_ok got
  split at passed
  · rename_i refunds list
    rw [bind_ok] at passed
    obtain ⟨found, search, passed⟩ := passed
    rw [ite_ok] at passed
    obtain ⟨present, passed⟩ | ⟨-, refused⟩ := passed
    · have first := findRefund_ok search
      cases shape : refundsOn origin refunds with
      | nil =>
        rw [shape] at first
        simp [first, truthy] at present
      | cons refund later =>
        rw [shape, List.head?_cons] at first
        have filled : refunds ≠ [] := by
          rintro rfl
          simp [refundsOn] at shape
        have listed : elements (chain (some item) "refunds") = refunds := by
          rw [coalesce_array list filled]
          rfl
        refine ⟨refund, later, by rw [listed, shape], ?_⟩
        rw [← first]
        exact checkAddress_ok passed
    · simp [raise_ok] at refused
  · simp [typeError, throw_ok] at passed

theorem noCalls_of {calls : Value} (empty : (elements calls).isEmpty = true)
    (listed : ∀ json, calls = some json → json = .null ∨ IsArray (some json)) : NoCalls calls := by
  cases calls with
  | none => exact .inl rfl
  | some json =>
    rcases listed json rfl with rfl | ⟨items, list⟩
    · exact .inr (.inl rfl)
    · rw [list] at empty ⊢
      exact .inr (.inr (by simpa [elements] using empty))

theorem checkOutput_ok {pay : Value} (known : chainNames expect.destinationChainId = some destination)
    (passed : checkOutput host out expect = .ok pay) :
    chain out "chainId" = some (.string destination) ∧ (elements (chain out "calls")).isEmpty = true ∧
    pay = chainFirst (chain out "payments") ∧
    (IsArray (chain out "payments") → ∃ item, chain out "payments" = some (.array [item]) ∧ pay = some item) ∧
    Names host (chain pay "recipient") expect.recipient ∧
    Names host (chain pay "currency") expect.destinationCurrency := by
  simp only [checkOutput, bind_ok, insist_ok, pure_ok, known] at passed
  obtain ⟨chainId, gotChain, -, named, calls, gotCalls, -, empty, first, sole, _, recipient, _, currency, rfl⟩ := passed
  obtain rfl := get_ok gotChain
  obtain rfl := get_ok gotCalls
  obtain ⟨firstPay, listed⟩ := soleOf_ok sole
  exact ⟨isName_some named, empty, firstPay, listed, checkAddress_ok recipient, checkAddress_ok currency⟩

/-- What an accepted quote passed, property by property. -/
theorem accepted_checks {result : Validated} (accepted : validateDepositQuote host quote expect = .ok result) :
    (∃ text, path quote ["protocol", "v2", "orderId"] = some (.string text) ∧ NonZeroWord text) ∧
    (∃ input done paid, soleOf host (coalesce (orderData quote) emptyObject) "inputs" "one input" = .ok input ∧
      checkPayment host input expect = .ok paid ∧ checkRefunds host input expect = .ok done) ∧
    ∃ pay out done, checkOutput host
        (coalesce (chain (coalesce (orderData quote) emptyObject) "output") emptyObject) expect = .ok pay ∧
      bigInt host (coalesce (coalesce (chain pay "expectedAmount")
        (path quote ["details", "currencyOut", "amount"])) (number 0)) = .ok out ∧
      checkMinOut out expect.minOut = .ok done := by
  simp only [validateDepositQuote, bind_ok, pure_ok] at accepted
  obtain ⟨_, -, orderId, word, read, got, input, sole, paid, payment, done, refunds, output, gotOutput, pay, outputs,
    details, gotDetails, _, -, _, -, expectedAmount, gotExpected, out, expected, _, -, minimum, -, least, covered, -⟩ :=
    accepted
  obtain rfl := get_ok got
  obtain rfl := get_ok gotOutput
  obtain rfl := get_ok gotDetails
  obtain rfl := get_ok gotExpected
  rw [emptyObject, chain_coalesce] at expected
  exact ⟨⟨orderId, orderIdOf_ok word⟩, ⟨input, done, paid, sole, payment, refunds⟩, pay, out, least, outputs, expected,
    covered⟩

theorem refunds_user {later : List Json} {first : Json} {user : String}
    (shape : refundsOn origin refunds = first :: later) (paid : Names host (chain (some first) "recipient") user) :
    (∀ refund ∈ refunds, RefundsUser host origin user refund) ↔
      ∀ refund ∈ (refundsOn origin refunds).tail, Names host (chain (some refund) "recipient") user := by
  rw [shape, List.tail_cons]
  constructor
  · intro all refund member
    have listed : refund ∈ refundsOn origin refunds := shape ▸ List.mem_cons_of_mem first member
    obtain ⟨member, here⟩ := List.mem_filter.mp listed
    exact all refund member (isString_iff.mp here)
  · intro others refund member here
    have listed : refund ∈ refundsOn origin refunds := List.mem_filter.mpr ⟨member, isString_iff.mpr here⟩
    rw [shape] at listed
    rcases List.mem_cons.mp listed with rfl | after
    · exact paid
    · exact others refund after

theorem checkMinOut_ok {expected : Int} {minOut : Option Int}
    (passed : checkMinOut expected minOut = .ok done) : ∀ least, minOut = some least → least ≤ expected := by
  rintro least rfl
  simpa [checkMinOut, insist_ok] using passed

/-- Of an accepted quote the order is sound exactly where what no check covers is as it should be. -/
theorem accepted_sound (host : Host) (quote : Value) (expect : Expectation) (origin destination : String)
    (result : Validated) (origins : chainNames expect.originChainId = some origin)
    (destinations : chainNames expect.destinationChainId = some destination)
    (accepted : validateDepositQuote host quote expect = .ok result) :
    Sound host quote expect origin destination ↔ Listed host quote expect.user origin := by
  obtain ⟨orderId, ⟨input, done, paid, sole, payment, refunds⟩, pay, out, least, outputs, expected, covered⟩ :=
    accepted_checks accepted
  obtain ⟨firstInput, oneInput⟩ := soleOf_ok sole
  obtain ⟨chainId, calls, firstPay, onePay, recipient, currency⟩ := checkOutput_ok destinations outputs
  simp only [emptyObject, chain_coalesce] at firstInput oneInput chainId calls firstPay onePay
  have outputCalls : path (orderData quote) ["output", "calls"] = chain (chain (orderData quote) "output") "calls" := rfl
  have outputPays : path (orderData quote) ["output", "payments"] =
    chain (chain (orderData quote) "output") "payments" := rfl
  constructor
  · rintro ⟨⟨item, inputs, paysIn⟩, paysOut, -, -⟩
    obtain ⟨paymentItem, payments, -, -⟩ := paysOut.payment
    refine ⟨⟨_, inputs⟩, ⟨_, payments⟩, fun json call => ?_, ?_⟩
    · rw [outputCalls] at call
      rcases paysOut.calls with absent | null | empty
      · simp [absent] at call
      · exact .inl (Option.some.inj (call.symm.trans null))
      · exact .inr ⟨[], call.symm.trans empty⟩
    · rw [inputs] at firstInput ⊢
      obtain rfl : input = some item := firstInput
      obtain ⟨first, later, shape, user⟩ := checkRefunds_ok origins refunds
      exact (refunds_user shape user).mp paysIn.refunds
  · rintro ⟨inputs, payments, calls_list, later_user⟩
    obtain ⟨item, inputsOne, rfl⟩ := oneInput inputs
    obtain ⟨payItem, paysOne, rfl⟩ := onePay payments
    obtain ⟨from_chain, amount, token⟩ := checkPayment_ok origins payment
    obtain ⟨first, later, shape, user⟩ := checkRefunds_ok origins refunds
    refine ⟨⟨item, inputsOne, from_chain, amount, token, ?_⟩, ⟨chainId, ⟨payItem, paysOne, recipient, currency⟩, ?_⟩,
      fun amount given => ⟨out, ?_, checkMinOut_ok covered amount given⟩, orderId⟩
    · rw [inputsOne] at later_user
      exact (refunds_user shape user).mpr later_user
    · exact noCalls_of calls fun json call => calls_list json (outputCalls.trans call)
    · rw [expectedOut, outputPays, ← firstPay]
      exact expected

/-! A quote from Arc to the Robinhood chain. -/

def asciiHost : Host where
  lower text := String.ofList (text.toList.map Char.toLower)
  decimal value := toString value.num
  numeral text := ((integerLiteral text).map fun n => Number.finite n).getD .nan

def sampleUser : String := "0x4444444444444444444444444444444444444444"

def sampleRecipient : String := "0x3333333333333333333333333333333333333333"

def sampleExpectation : Expectation where
  user := sampleUser
  recipient := sampleRecipient
  amount := 1000000000
  originChainId := 5042
  destinationChainId := 4663
  destinationCurrency := "0x5fc5360d0400a0fd4f2af552add042d716f1d168"
  minOut := some 999000000
  nativeScale := none
  paymentCurrency := some "0x3600000000000000000000000000000000000000"

def refundTo (recipient : String) : Json :=
  .object [("chainId", .string "arc"), ("recipient", .string recipient)]

def sampleQuote (refunds : List Json) (calls : Json) : Json :=
  let payment := Json.object [("chainId", .string "arc"),
    ("currency", .string "0x3600000000000000000000000000000000000000"), ("amount", .string "1000000000")]
  let paid := Json.object [("recipient", .string sampleRecipient),
    ("currency", .string "0x5FC5360D0400a0fd4f2af552add042d716f1d168"), ("expectedAmount", .string "999195321")]
  let order := Json.object [
    ("inputs", .array [.object [("payment", payment), ("refunds", .array refunds)]]),
    ("output", .object [("chainId", .string "robinhood"), ("payments", .array [paid]), ("calls", calls)])]
  .object [("protocol", .object [("v2", .object [
    ("orderId", .string "0x4519ede757e816e3e4f5fe69ae06c5b5ad1c2e3d39b9e064b7541d56217761a5"),
    ("orderData", order)])])]

/-- One refund on the origin chain, to the user, and no call. -/
theorem accepted_sound_sample :
    Sound asciiHost (some (sampleQuote [refundTo sampleUser] (.array []))) sampleExpectation "arc" "robinhood" := by
  refine (accepted_sound asciiHost _ sampleExpectation "arc" "robinhood" _ rfl rfl rfl).mpr
    ⟨⟨_, rfl⟩, ⟨_, rfl⟩, ?_, ?_⟩
  · rintro calls ⟨⟩
    exact .inr ⟨[], rfl⟩
  · intro refund member
    exact absurd member List.not_mem_nil

/-- Accepted with a second refund to somebody else, and with a call that is no array. -/
theorem quote_misdirected :
    (∃ result, validateDepositQuote asciiHost
      (some (sampleQuote [refundTo sampleUser, refundTo sampleRecipient] (.array []))) sampleExpectation = .ok result) ∧
    ¬ Sound asciiHost (some (sampleQuote [refundTo sampleUser, refundTo sampleRecipient] (.array [])))
      sampleExpectation "arc" "robinhood" ∧
    (∃ result, validateDepositQuote asciiHost
      (some (sampleQuote [refundTo sampleUser] (.object [("to", .string sampleUser)]))) sampleExpectation = .ok result) ∧
    ¬ Sound asciiHost (some (sampleQuote [refundTo sampleUser] (.object [("to", .string sampleUser)])))
      sampleExpectation "arc" "robinhood" := by
  refine ⟨⟨_, rfl⟩, fun sound => ?_, ⟨_, rfl⟩, fun sound => ?_⟩
  · obtain ⟨input, inputs, paysIn⟩ := sound.input
    cases inputs
    have elsewhere := paysIn.refunds (refundTo sampleRecipient) (.tail _ (.head _)) rfl
    exact absurd elsewhere (by decide)
  · rcases sound.output.calls with absent | null | empty
    · cases absent
    · cases null
    · cases empty

end Solonpad.DepositQuote
