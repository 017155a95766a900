import EpsDapp.Schema.Failure
import Mathlib.Data.Int.Notation

/-!
# The delivery memo

`buildServiceMemo` is the text a delivery carries on chain, and `decodeMemo`
reads the text of a recorded transaction back. `CarriesMemo` says what it is for
a transaction to carry a memo without going through the decoder: its first
instruction addressed to the Memo program has that text. The lemma
`decodeMemo_eq_some_iff` connects the two for both message shapes.
-/

set_option autoImplicit false

namespace EpsDapp

/-- `buildServiceMemo`: `${sha256}|${noticeToken}|${serviceId}`. -/
def buildServiceMemo (sha256 noticeToken serviceId : String) : String :=
  sha256 ++ "|" ++ noticeToken ++ "|" ++ serviceId

abbrev Bytes := List UInt8

/-- The 32 bytes of a public key. -/
abbrev PublicKey := Bytes

/-- What is used of `@solana/web3.js`, `bs58` and `Buffer`. A decoder that
throws is `none`. -/
structure Web3 where
  parsePublicKey : String → Option PublicKey
  isOnCurve : PublicKey → Bool
  bs58Decode : String → Option Bytes
  utf8Decode : Bytes → String
  memoProgramId : PublicKey

/-- `SystemProgram.programId`, whose 32 zero bytes are a point of the curve. -/
def systemProgramAddress : String := "11111111111111111111111111111111"

/-- The libraries, as far as ASCII text and the address of the system program
go. -/
def asciiWeb3 : Web3 where
  parsePublicKey addr :=
    if addr = systemProgramAddress then some (List.replicate 32 0) else none
  isOnCurve key := key == List.replicate 32 0
  bs58Decode _ := none
  utf8Decode data := String.ofList (data.map fun b => Char.ofNat b.toNat)
  memoProgramId :=
    [5, 74, 83, 90, 153, 41, 33, 6, 77, 36, 232, 113, 96, 218, 56, 124,
      124, 53, 181, 221, 188, 146, 187, 129, 228, 31, 168, 64, 65, 5, 68, 141]

/-- `assertValidRecipient`. -/
def assertValidRecipient (web3 : Web3) (addr : String) : Except Failure PublicKey :=
  match web3.parsePublicKey addr with
  | none => .error (.invalidRecipient addr .malformed)
  | some pubkey =>
      if web3.isOnCurve pubkey then .ok pubkey
      else .error (.invalidRecipient addr .offCurve)

/-- An instruction of a message, with its data as the message shape has it. -/
structure Instruction (δ : Type) where
  programIdIndex : ℕ
  data : δ

/-- The two shapes in which `getTransaction` returns a message. -/
inductive Message
  | legacy (accountKeys : List PublicKey) (instructions : List (Instruction String))
  | v0 (staticAccountKeys : List PublicKey)
      (compiledInstructions : List (Instruction Bytes))

/-- A message as `decodeMemo` reads it, with the fields a shape lacks absent. -/
structure MessageFields where
  accountKeys : Option (List PublicKey) := none
  staticAccountKeys : Option (List PublicKey) := none
  instructions : Option (List (Instruction String)) := none
  compiledInstructions : Option (List (Instruction Bytes)) := none

/-- The fields of a message. -/
def Message.fields : Message → MessageFields
  | .legacy keys ixs => { accountKeys := some keys, instructions := some ixs }
  | .v0 keys ixs => { staticAccountKeys := some keys, compiledInstructions := some ixs }

/-- A recorded transaction. `err` is set when it landed but failed. -/
structure TransactionResponse where
  slot : ℕ
  blockTime : Option ℤ
  err : Option String
  message : Message

/-- `decodeMemo`. -/
def decodeMemo (web3 : Web3) (tx : Option TransactionResponse) :
    Except Failure (Option String) :=
  match tx with
  | none => .ok none
  | some tx =>
      let m := tx.message.fields
      match m.accountKeys.or m.staticAccountKeys with
      | none => .ok none
      | some accountKeys =>
          let isMemo (i : ℕ) : Bool := accountKeys[i]? == some web3.memoProgramId
          match (m.instructions.getD []).find? fun ix => isMemo ix.programIdIndex with
          | some ix =>
              match web3.bs58Decode ix.data with
              | some data => .ok (some (web3.utf8Decode data))
              | none => .error (.error "Non-base58 character")
          | none =>
              match (m.compiledInstructions.getD []).find? fun ix =>
                  isMemo ix.programIdIndex with
              | some ix => .ok (some (web3.utf8Decode ix.data))
              | none => .ok none

/-- The instructions of a message: the program each is addressed to, and its
data. -/
def Message.decoded (web3 : Web3) : Message → List (Option PublicKey × Option Bytes)
  | .legacy keys ixs =>
      ixs.map fun ix => (keys[ix.programIdIndex]?, web3.bs58Decode ix.data)
  | .v0 keys ixs => ixs.map fun ix => (keys[ix.programIdIndex]?, some ix.data)

/-- The transaction's memo is `memo`: the first instruction addressed to the
Memo program has that text. -/
def TransactionResponse.CarriesMemo (web3 : Web3) (tx : TransactionResponse)
    (memo : String) : Prop :=
  ∃ program data, (tx.message.decoded web3).find?
      (fun p => p.1 == some web3.memoProgramId) = some (program, some data) ∧
    web3.utf8Decode data = memo

theorem decodeMemo_eq_some_iff (web3 : Web3) (tx : TransactionResponse) (memo : String) :
    decodeMemo web3 (some tx) = .ok (some memo) ↔ tx.CarriesMemo web3 memo := by
  obtain ⟨slot, blockTime, err, message⟩ := tx
  cases message with
  | legacy keys ixs =>
      simp only [decodeMemo, Message.fields, Option.some_or, Option.getD_some,
        Option.getD_none, List.find?_nil, TransactionResponse.CarriesMemo,
        Message.decoded, List.find?_map, Function.comp_def]
      cases hix : ixs.find? fun ix =>
          keys[ix.programIdIndex]? == some web3.memoProgramId with
      | none => simp
      | some ix =>
          cases hdata : web3.bs58Decode ix.data with
          | none => simp [hdata]
          | some data =>
              simp only [hdata, Option.map_some, Except.ok.injEq, Option.some.injEq,
                Prod.mk.injEq]
              constructor
              · intro h
                exact ⟨_, _, ⟨rfl, rfl⟩, h⟩
              · rintro ⟨_, _, ⟨rfl, rfl⟩, h⟩
                exact h
  | v0 keys ixs =>
      simp only [decodeMemo, Message.fields, Option.none_or, Option.getD_none,
        Option.getD_some, List.find?_nil, TransactionResponse.CarriesMemo,
        Message.decoded, List.find?_map, Function.comp_def]
      cases hix : ixs.find? fun ix =>
          keys[ix.programIdIndex]? == some web3.memoProgramId with
      | none => simp
      | some ix =>
          simp only [Option.map_some, Except.ok.injEq, Option.some.injEq, Prod.mk.injEq]
          constructor
          · intro h
            exact ⟨_, _, ⟨rfl, rfl⟩, h⟩
          · rintro ⟨_, _, ⟨rfl, rfl⟩, h⟩
            exact h

/-- The v0 transaction that transfers to the system program with an ASCII memo. -/
def asciiTransaction (slot : ℕ) (blockTime : Option ℤ) (err : Option String) (memo : String) :
    TransactionResponse where
  slot := slot
  blockTime := blockTime
  err := err
  message := .v0 [List.replicate 32 1, List.replicate 32 0, asciiWeb3.memoProgramId]
    [⟨1, []⟩, ⟨2, memo.toList.map fun c => UInt8.ofNat c.toNat⟩]

end EpsDapp
