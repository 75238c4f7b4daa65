import Solonpad.Checked
import Mathlib.Data.List.Basic
import Mathlib.Data.Rat.Defs
import Mathlib.Tactic.NormNum

/-!
What a parsed JSON text is to a script that reads it: property reads, the conversions to text and to integers, and
the tests for truth. A read of a missing property gives no value, a read from no value or from null throws, and the
same property names mean something else on an array, on a string and on an object.
-/

namespace Solonpad.JsonValues

/-- A number of the script: a double's value, without the sign of zero. -/
inductive Number where
  | finite (value : Rat)
  | infinite (negative : Bool)
  | nan
  deriving DecidableEq

/-- Members in order, one of each name; of a name given twice the first is read. -/
inductive Json where
  | null
  | bool (value : Bool)
  | number (value : Number)
  | string (text : String)
  | array (items : List Json)
  | object (members : List (String × Json))

/-- `none` is `undefined`. -/
abbrev Value := Option Json

inductive Exception where
  | typeError
  | rangeError
  | syntaxError
  | raised (message : String)
  deriving DecidableEq

abbrev Script := Checked.Tx Exception

/-- The built-in conversions of text: `toLowerCase`, a finite number's decimal text, and `Number` of a text. -/
structure Host where
  lower : String → String
  decimal : Rat → String
  numeral : String → Number

def typeError {α : Type} : Script α := throw (.revert .typeError)

/-- Throws the error whose message is computed, or what its computation throws. -/
def raise {α : Type} (message : Script String) : Script α := do
  let text ← message
  throw (.revert (.raised text))

def insist (condition : Prop) [Decidable condition] (message : Script String) : Script Unit :=
  if condition then pure () else raise message

theorem raise_ok {α : Type} (message : Script String) (result : α) : raise message = .ok result ↔ False := by
  cases message <;> simp [raise, bind, Except.bind, throw, throwThe, MonadExceptOf.throw]

theorem insist_ok (condition : Prop) [Decidable condition] (message : Script String) (result : Unit) :
    insist condition message = .ok result ↔ condition := by
  by_cases holds : condition
  · simp [insist, holds, Checked.pure_ok]
  · simp [insist, holds, raise_ok]

/-! Reading properties. -/

/-- The code units of a text: characters beyond the first plane take two. -/
def codeUnits (text : String) : Nat := (text.toList.map fun c => if c.toNat < 65536 then 1 else 2).sum

def Json.member : Json → String → Value
  | .object members, name => (members.find? fun entry => entry.1 == name).map Prod.snd
  | .array items, name => if name = "length" then some (.number (.finite items.length)) else none
  | .string text, name => if name = "length" then some (.number (.finite (codeUnits text))) else none
  | _, _ => none

/-- `value.name`. -/
def get (value : Value) (name : String) : Script Value :=
  match value with
  | none | some .null => typeError
  | some json => pure (json.member name)

/-- `value?.name`. -/
def chain (value : Value) (name : String) : Value :=
  match value with
  | none | some .null => none
  | some json => json.member name

/-- `value?.a?.b` and so on along the names. -/
def path (value : Value) (names : List String) : Value := names.foldl chain value

/-- `left ?? right`. -/
def coalesce (left right : Value) : Value :=
  match left with
  | none | some .null => right
  | some json => some json

def Json.first : Json → Value
  | .array items => items.head?
  | .string text => text.toList.head?.map fun c => .string (String.singleton c)
  | .object members => Json.member (.object members) "0"
  | _ => none

/-- `value[0]`. -/
def getFirst (value : Value) : Script Value :=
  match value with
  | none | some .null => typeError
  | some json => pure json.first

def chainFirst (value : Value) : Value :=
  match value with
  | none | some .null => none
  | some json => json.first

/-- The elements of an array; other values have none. -/
def elements : Value → List Json
  | some (.array items) => items
  | _ => []

def IsArray (value : Value) : Prop := ∃ items, value = some (.array items)

/-- `value.length === 1` of the length read. -/
def isOne : Value → Bool
  | some (.number (.finite value)) => value == 1
  | _ => false

def isString : Value → String → Bool
  | some (.string text), expected => text == expected
  | _, _ => false

/-- `value === name` for the name a table holds, or `undefined` for one it does not hold. -/
def isName (value : Value) (name : Option String) : Bool :=
  match name with
  | some text => isString value text
  | none => value.isNone

def truthy : Value → Bool
  | none | some .null => false
  | some (.bool value) => value
  | some (.number (.finite value)) => value != 0
  | some (.number (.infinite _)) => true
  | some (.number .nan) => false
  | some (.string text) => text != ""
  | some (.array _) | some (.object _) => true

/-! Conversions. -/

def numberText (host : Host) : Number → String
  | .finite value => host.decimal value
  | .infinite negative => if negative then "-Infinity" else "Infinity"
  | .nan => "NaN"

/-- An object with a member of this name has no conversion to a text: the member is no function. -/
def overridden (members : List (String × Json)) : Bool := members.any fun entry => entry.1 == "toString"

mutual

/-- `String(json)`. -/
def Json.text (host : Host) : Json → Script String
  | .null => pure "null"
  | .bool value => pure (if value then "true" else "false")
  | .number value => pure (numberText host value)
  | .string text => pure text
  | .array items => do
    let parts ← Json.texts host items
    pure (String.intercalate "," parts)
  | .object members => if overridden members then typeError else pure "[object Object]"

def Json.texts (host : Host) : List Json → Script (List String)
  | [] => pure []
  | .null :: rest => do
    let parts ← Json.texts host rest
    pure ("" :: parts)
  | item :: rest => do
    let part ← Json.text host item
    let parts ← Json.texts host rest
    pure (part :: parts)

end

/-- A value put in a message. -/
def display (host : Host) : Value → Script String
  | none => pure "undefined"
  | some json => json.text host

/-- `String(value ?? '').toLowerCase()`. -/
def lowered (host : Host) (value : Value) : Script String :=
  match value with
  | none | some .null => pure (host.lower "")
  | some json => do
    let text ← json.text host
    pure (host.lower text)

def isBlank (c : Char) : Bool :=
  [9, 10, 11, 12, 13, 32, 160, 5760, 8232, 8233, 8239, 8287, 12288, 65279].contains c.toNat ||
    8192 ≤ c.toNat && c.toNat ≤ 8202

def trim (text : List Char) : List Char := ((text.dropWhile isBlank).reverse.dropWhile isBlank).reverse

def digit (base : Nat) (c : Char) : Option Nat :=
  let value := if 48 ≤ c.toNat ∧ c.toNat ≤ 57 then some (c.toNat - 48)
    else if 97 ≤ c.toNat ∧ c.toNat ≤ 102 then some (c.toNat - 87)
    else if 65 ≤ c.toNat ∧ c.toNat ≤ 70 then some (c.toNat - 55)
    else none
  value.filter (· < base)

def shift (base : Nat) (total : Option Nat) (c : Char) : Option Nat :=
  total.bind fun n => (digit base c).map fun d => n * base + d

def digits (base : Nat) (text : List Char) : Option Nat :=
  if text = [] then none
  else text.foldl (shift base) (some 0)

/-- A text as an integer literal, blank for zero. -/
def integerLiteral (text : String) : Option Int :=
  match trim text.toList with
  | [] => some 0
  | '0' :: 'x' :: rest | '0' :: 'X' :: rest => (digits 16 rest).map Int.ofNat
  | '0' :: 'o' :: rest | '0' :: 'O' :: rest => (digits 8 rest).map Int.ofNat
  | '0' :: 'b' :: rest | '0' :: 'B' :: rest => (digits 2 rest).map Int.ofNat
  | '+' :: rest => (digits 10 rest).map Int.ofNat
  | '-' :: rest => (digits 10 rest).map fun n => -(n : Int)
  | rest => (digits 10 rest).map Int.ofNat

def integerOf (text : String) : Script Int :=
  match integerLiteral text with
  | some value => pure value
  | none => throw (.revert .syntaxError)

/-- `BigInt(value)`. -/
def bigInt (host : Host) : Value → Script Int
  | none | some .null => typeError
  | some (.bool value) => pure (if value then 1 else 0)
  | some (.number (.finite value)) => if value.den = 1 then pure value.num else throw (.revert .rangeError)
  | some (.number _) => throw (.revert .rangeError)
  | some json => do
    let text ← json.text host
    integerOf text

/-- `Number(value)`. -/
def toNumber (host : Host) : Value → Script Number
  | none => pure .nan
  | some .null => pure (.finite 0)
  | some (.bool value) => pure (.finite (if value then 1 else 0))
  | some (.number value) => pure value
  | some json => do
    let text ← json.text host
    pure (host.numeral text)

/-- The word stands in the text, in small or capital letters. -/
def spells (word : String) (text : String) : Bool :=
  (text.toList.map Char.toLower).tails.any fun rest => word.toList.isPrefixOf rest

mutual

/-- The word stands in the JSON text: in a string or in a member's name, as letters are never escaped. -/
def Json.mentions (word : String) : Json → Bool
  | .string text => spells word text
  | .array items => Json.anyMentions word items
  | .object members => Json.memberMentions word members
  | _ => false

def Json.anyMentions (word : String) : List Json → Bool
  | [] => false
  | item :: rest => item.mentions word || Json.anyMentions word rest

def Json.memberMentions (word : String) : List (String × Json) → Bool
  | [] => false
  | (name, item) :: rest => spells word name || item.mentions word || Json.memberMentions word rest

end

/-! How the reads agree. -/

variable {value result : Value} {name : String}

theorem get_ok (read : get value name = .ok result) : result = chain value name := by
  unfold get at read
  split at read
  · simp [typeError, Checked.throw_ok] at read
  · simp [typeError, Checked.throw_ok] at read
  · rename_i json some
    rw [Checked.pure_ok] at read
    simp [chain, ← read]

/-- A read through an empty object in the place of nothing is a read through nothing. -/
theorem chain_coalesce : chain (coalesce value (some (.object []))) name = chain value name := by
  unfold coalesce
  split <;> simp [chain, Json.member]

/-- A filled array read in the place of a missing one is the property itself. -/
theorem coalesce_array {items : List Json} (list : coalesce value (some (.array [])) = some (.array items))
    (filled : items ≠ []) : value = some (.array items) := by
  unfold coalesce at list
  split at list
  · exact absurd (Json.array.inj (Option.some.inj list)).symm filled
  · exact absurd (Json.array.inj (Option.some.inj list)).symm filled
  · exact list

theorem isString_iff {text : String} : isString value text = true ↔ value = some (.string text) := by
  unfold isString
  split
  · rename_i found expected
    simp
  · rename_i other
    constructor
    · simp
    · rintro rfl
      exact (other text rfl).elim

/-- An array of length one has one element, and it is the first. -/
theorem sole_element (array : IsArray value) (one : isOne (chain value "length") = true) :
    ∃ item, value = some (.array [item]) := by
  obtain ⟨items, rfl⟩ := array
  have length : (items.length : Rat) = 1 := by simpa [chain, Json.member, isOne] using one
  obtain ⟨item, rfl⟩ := List.length_eq_one_iff.mp (by exact_mod_cast length)
  exact ⟨item, rfl⟩

/-! Words in hexadecimal. -/

/-- `[0-9a-fA-F]`. -/
def isHex (c : Char) : Bool :=
  decide (48 ≤ c.toNat ∧ c.toNat ≤ 57 ∨ 97 ≤ c.toNat ∧ c.toNat ≤ 102 ∨ 65 ≤ c.toNat ∧ c.toNat ≤ 70)

theorem digit_hex {c : Char} (hex : isHex c = true) : ∃ d, digit 16 c = some d ∧ d < 16 ∧ (d = 0 → c = '0') := by
  have ranges := of_decide_eq_true hex
  by_cases decimal : 48 ≤ c.toNat ∧ c.toNat ≤ 57
  · refine ⟨c.toNat - 48, ?_, by omega, fun none => ?_⟩
    · simp [digit, decimal, show c.toNat - 48 < 16 by omega]
    · exact Char.toNat_inj.mp (show c.toNat = 48 by omega)
  by_cases small : 97 ≤ c.toNat ∧ c.toNat ≤ 102
  · refine ⟨c.toNat - 87, ?_, by omega, fun none => by omega⟩
    simp only [digit, if_neg decimal, if_pos small]
    simp [show c.toNat - 87 < 16 by omega]
  · have capital : 65 ≤ c.toNat ∧ c.toNat ≤ 70 := by omega
    refine ⟨c.toNat - 55, ?_, by omega, fun none => by omega⟩
    simp only [digit, if_neg decimal, if_neg small, if_pos capital]
    simp [show c.toNat - 55 < 16 by omega]

/-- Reading on from a number takes as many places as there are digits, and gives zero of zeros only. -/
theorem foldl_hex (text : List Char) (hex : ∀ c ∈ text, isHex c = true) (start : Nat) :
    ∃ n, text.foldl (shift 16) (some start) = some n ∧ n < (start + 1) * 16 ^ text.length ∧
      (n = 0 → start = 0 ∧ ∀ c ∈ text, c = '0') := by
  induction text generalizing start with
  | nil => exact ⟨start, rfl, by simp, fun zero => ⟨zero, by simp⟩⟩
  | cons c rest ih =>
    obtain ⟨d, read, below, zero⟩ := digit_hex (hex c List.mem_cons_self)
    obtain ⟨n, total, bound, zeros⟩ := ih (fun c later => hex c (List.mem_cons_of_mem _ later)) (start * 16 + d)
    refine ⟨n, ?_, ?_, ?_⟩
    · rw [List.foldl_cons, show shift 16 (some start) c = some (start * 16 + d) by simp [shift, read]]
      exact total
    · have room : start * 16 + d + 1 ≤ (start + 1) * 16 := by omega
      calc n < (start * 16 + d + 1) * 16 ^ rest.length := bound
        _ ≤ (start + 1) * 16 * 16 ^ rest.length := Nat.mul_le_mul_right _ room
        _ = (start + 1) * 16 ^ (rest.length + 1) := by rw [Nat.pow_succ']; ac_rfl
    · intro none
      obtain ⟨empty, others⟩ := zeros none
      refine ⟨by omega, ?_⟩
      intro c' member
      rcases List.mem_cons.mp member with rfl | later
      · exact zero (by omega)
      · exact others c' later

/-- A text of 64 hexadecimal digits, not all of them zero, is a non-zero number of 32 bytes. -/
theorem digits_word {text : List Char} (length : text.length = 64) (hex : ∀ c ∈ text, isHex c = true)
    (some_digit : ¬ ∀ c ∈ text, c = '0') : ∃ n, digits 16 text = some n ∧ 0 < n ∧ n < 2 ^ 256 := by
  obtain ⟨n, total, bound, zeros⟩ := foldl_hex text hex 0
  refine ⟨n, ?_, Nat.pos_of_ne_zero fun none => some_digit (zeros none).2, ?_⟩
  · have filled : text ≠ [] := by rintro rfl; simp at length
    rw [digits, if_neg filled]
    exact total
  · rw [length] at bound
    exact bound.trans_eq (by norm_num)

end Solonpad.JsonValues
