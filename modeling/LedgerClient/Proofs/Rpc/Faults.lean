import LedgerClient.Proofs.Json.Fields
import LedgerClient.Proofs.Rpc.Handling

/-!
# `LedgerClient.Proofs.Rpc.Faults`: what is wrong with parameters

A method reads its parameters before it does anything, and they can be
wrong in many places: a field is missing, a text is no account, an
amount is zero or too large, two amounts have no sum. All of these are
errors of the caller (`Error.OfCaller`), so the service answers each of
them with the code of wrong parameters; only parameters that are no
object at all have another one.

`FailsOnly` is such a statement about a computation. It passes through
every way in which computations are put together, so each function is
treated in the shape of its definition.

`TransferParams.Wrong` says which error that is for a transfer. The
entries are added one after the other, then come the memo and the fee,
and the first thing that is wrong is the one that is reported.
-/

set_option autoImplicit false

namespace LedgerClient

/-- Every error that a result can be has a property. -/
def FailsOnly {ε α : Type} (P : ε → Prop) (result : Except ε α) : Prop :=
  ∀ e, result = .error e → P e

namespace FailsOnly

section
variable {ε ε' α β : Type} {P : ε → Prop} {x : Except ε α}

/-- A step that cannot fail only fails as it may. -/
theorem ok (a : α) : FailsOnly P (.ok a) := nofun

/-- A step that must fail only fails as it may if its error is of that kind. -/
theorem error {e : ε} (h : P e) : FailsOnly P (.error e : Except ε α) := by
  intro e' he'
  cases he'
  exact h

/-- Of two steps, either may fail. -/
theorem bind {f : α → Except ε β} (hx : FailsOnly P x) (hf : ∀ a, FailsOnly P (f a)) :
    FailsOnly P (x >>= f) := by
  intro e he
  cases x with
  | error e' =>
    cases he
    exact hx e rfl
  | ok a => exact hf a e he

/-- What is made of a result adds no failure. -/
theorem map {f : α → β} (hx : FailsOnly P x) : FailsOnly P (x.map f) := by
  intro e he
  cases x with
  | error e' =>
    cases he
    exact hx e rfl
  | ok a => cases he

/-- Errors that are translated are of the kind that theirs is translated to. -/
theorem mapError {Q : ε' → Prop} {f : ε → ε'} (hx : FailsOnly P x) (hf : ∀ e, P e → Q (f e)) :
    FailsOnly Q (x.mapError f) := by
  intro e he
  cases x with
  | error e' =>
    cases he
    exact hf e' (hx e' rfl)
  | ok a => cases he

/-- Of many steps, each may fail. -/
theorem foldlM {f : β → α → Except ε β} (hf : ∀ b a, FailsOnly P (f b a)) (as : List α) (b : β) :
    FailsOnly P (as.foldlM f b) := by
  induction as generalizing b with
  | nil => exact ok b
  | cons a as ih => exact bind (hf b a) fun b' => ih b'

end

end FailsOnly

/-! ### Errors of the caller -/

/-- An error that lays it on what the caller passed. -/
def Error.OfCaller : Error → Prop
  | invalidArgument _ | key _ => True
  | _ => False

open Error (OfCaller)

/-- A text that is no account is the fault of the caller. -/
theorem AccountId.parse_fails (text : String) : FailsOnly OfCaller (parse text) := by
  unfold parse
  split
  · exact .ok _
  · exact .error trivial

/-- So is one that is no token. -/
theorem TokenId.parse_fails (text : String) : FailsOnly OfCaller (parse text) := by
  unfold parse
  split
  · exact .ok _
  · exact .error trivial

/-- So is one that is no private key. -/
theorem PrivateKey.parse_fails (text : String) : FailsOnly OfCaller (parse text) := by
  unfold parse
  split
  · exact .ok _
  · exact .error trivial

namespace EntityId

/-- Whoever names something else for an account is at fault. -/
theorem toAccount_fails (id : EntityId) : FailsOnly OfCaller id.toAccount := by
  cases id with
  | account id => exact .ok id
  | _ => exact .error trivial

/-- Whoever names something else for a token is. -/
theorem toToken_fails (id : EntityId) : FailsOnly OfCaller id.toToken := by
  cases id with
  | token id => exact .ok id
  | _ => exact .error trivial

/-- Whoever names something else for a unique token is. -/
theorem toNft_fails (id : EntityId) : FailsOnly OfCaller id.toNft := by
  cases id with
  | nft id => exact .ok id
  | _ => exact .error trivial

end EntityId

namespace Network

/-- An address that is none is the fault of the caller, wherever it is in the list. -/
theorem numbered_fails (num : UInt64) (addresses : List String) :
    FailsOnly OfCaller (numbered num addresses) := by
  induction addresses generalizing num with
  | nil => exact .ok []
  | cons address rest ih =>
    -- The nodes before it are numbered without fault, so what fails is this address or a later one.
    refine .bind ?_ fun node => .bind (ih (num + 1)) fun nodes => .ok _
    unfold Node.make
    split
    · exact .ok _
    · exact .error trivial

/-- So is a list without nodes, or with an account twice. -/
theorem make_fails (nodes : List Node) : FailsOnly OfCaller (make nodes) := by
  unfold make
  split
  · exact .error trivial
  · split
    · exact .error trivial
    · exact .ok _

/-- A network of addresses only fails in these ways. -/
theorem ofAddresses_fails (addresses : List String) :
    FailsOnly OfCaller (ofAddresses addresses) :=
  .bind (numbered_fails _ addresses) make_fails

end Network

namespace TransferData

/-- An amount of nothing is the fault of the caller. -/
theorem checkNonzero_fails (amount : Int64) : FailsOnly OfCaller (checkNonzero amount) := by
  unfold checkNonzero
  split
  · exact .error trivial
  · exact .ok ()

/-- So is one with which a sum leaves its range. -/
theorem accumulate_fails (current amount : Int64) :
    FailsOnly OfCaller (accumulate current amount) := by
  unfold accumulate
  split
  · exact .ok _
  · exact .error trivial

/-- Adding to a list fails only where merging does. -/
theorem addTo_fails {α : Type} {same : α → Bool} {merge : α → Except Error (Option α)}
    (hmerge : ∀ entry, FailsOnly OfCaller (merge entry)) (new : α) (entries : List α) :
    FailsOnly OfCaller (addTo same merge new entries) := by
  induction entries with
  | nil => exact .ok _
  | cons entry rest ih =>
    unfold addTo
    split
    · exact .map (hmerge entry)
    · exact .map ih

variable (data : TransferData)

/-- An amount that is not added is the fault of the caller: of the account, of the amount, or of the
sum. -/
theorem addHbar_fails (account : EntityId) (amount : Int64) (isApproved : Bool) :
    FailsOnly OfCaller (data.addHbar account amount isApproved) := by
  refine .bind account.toAccount_fails fun accountId => ?_
  refine .bind (checkNonzero_fails amount) fun _ => ?_
  refine .bind (addTo_fails (fun entry => ?_) _ _) fun hbar => .ok _
  exact .bind (accumulate_fails _ amount) fun sum => .ok _

/-- So is one of a token. -/
theorem addToken_fails (token account : EntityId) (amount : Int64) (decimals : Option UInt32)
    (isApproved : Bool) :
    FailsOnly OfCaller (data.addToken token account amount decimals isApproved) := by
  refine .bind token.toToken_fails fun tokenId => .bind account.toAccount_fails fun accountId => ?_
  refine .bind (checkNonzero_fails amount) fun _ => ?_
  refine .bind (addTo_fails (fun entry => ?_) _ _) fun tokens => .ok _
  exact .bind (accumulate_fails _ amount) fun sum => .ok _

/-- A move of a unique token only fails by one of its three names. -/
theorem addNft_fails (nft sender receiver : EntityId) (isApproved : Bool) :
    FailsOnly OfCaller (data.addNft nft sender receiver isApproved) :=
  .bind nft.toNft_fails fun _ => .bind sender.toAccount_fails fun _ =>
    .bind receiver.toAccount_fails fun _ => .ok _

end TransferData

/-- A memo that is too long is the fault of the caller. -/
theorem Draft.setMemo_fails (d : Draft) (memo : String) : FailsOnly OfCaller (d.setMemo memo) := by
  unfold setMemo
  simp only
  split
  · exact .ok _
  · exact .error trivial

namespace Rpc

/-! ### Errors of parameters -/

/-- The code of wrong parameters. -/
def ErrorObject.OfParams (e : ErrorObject) : Prop := e.code = -32602

open ErrorObject (OfParams)

/-- What the caller got wrong is an error of the parameters. -/
theorem ErrorObject.ofParams_ofError {e : Error} (h : e.OfCaller) : OfParams (ofError e) := by
  cases e with
  | invalidArgument fault => exact rfl
  | key fault => exact rfl
  | _ => cases h

/-- What is the fault of the caller is answered with an error of the parameters. -/
theorem lift_fails {α : Type} {result : Except Error α} (h : FailsOnly OfCaller result) :
    FailsOnly OfParams (lift result) :=
  h.mapError fun _ => ErrorObject.ofParams_ofError

namespace Service

/-- So is a parameter that is not there, or is no text. -/
theorem requiredText_fails (params : List (String × Json)) (name : String) :
    FailsOnly OfParams (requiredText params name) := by
  unfold requiredText
  split
  · exact .ok _
  · exact .error rfl

/-- So is a network that is unknown, or is listed with something that is no address. -/
theorem networkFrom_fails (network : Option Json) : FailsOnly OfParams (networkFrom network) := by
  unfold networkFrom
  -- A named network is looked up and a listed one is read, and every other value has the one error.
  split
  · exact .ok _
  · exact .ok _
  · split
    · exact .ok _
    · exact .error rfl
  · split
    · split
      · exact lift_fails (Network.ofAddresses_fails _)
      · exact .error rfl
    · exact .error rfl
  · exact .error rfl

/-- Parameters that describe no client are wrong, in whichever of these ways. -/
theorem clientFrom_fails (params : List (String × Json)) :
    FailsOnly OfParams (clientFrom params) := by
  refine .bind (requiredText_fails params _) fun account => ?_
  refine .bind (lift_fails (AccountId.parse_fails account)) fun accountId => ?_
  refine .bind (requiredText_fails params _) fun text => ?_
  refine .bind (lift_fails (PrivateKey.parse_fails text)) fun key => ?_
  exact .bind (networkFrom_fails _) fun network => .ok _

/-- Parameters that describe no client are wrong, or no object at all. -/
theorem clientOf_fails (params : Json) :
    FailsOnly (fun e => OfParams e ∨ e = .invalidRequest) (clientOf params) := by
  refine .bind ?_ fun fields e he => .inl (clientFrom_fails fields e he)
  unfold paramsObject
  split
  · exact .ok _
  · exact .ok _
  · exact .error (.inr rfl)

end Service

/-- An amount that is no number of 64 bits is an error of the parameters. -/
theorem Amount.value_fails (name : String) (amount : Amount) :
    FailsOnly OfParams (amount.value name) := by
  unfold value
  split
  · exact .ok _
  · split
    · exact .ok _
    · exact .error rfl

/-- What is wrong with an edit is an error of the parameters. -/
theorem edit_fails {draft : Draft} {change : TransferData → Except Error TransferData}
    (h : FailsOnly OfCaller (change draft.data)) : FailsOnly OfParams (lift (draft.edit change)) :=
  lift_fails h.map

/-- A transfer that is not added is an error of the parameters: something in it is wrong, or it is
not of exactly one kind. -/
theorem TransferParam.addTo_fails (p : TransferParam) (draft : Draft) :
    FailsOnly OfParams (p.addTo draft) := by
  unfold TransferParam.addTo
  split
  · -- Each kind reads its fields in order and then adds what they make.
    refine .bind (lift_fails (AccountId.parse_fails _)) fun account => ?_
    refine .bind (Amount.value_fails _ _) fun amount => ?_
    exact edit_fails (TransferData.addHbar_fails _ _ _ _)
  · refine .bind (lift_fails (TokenId.parse_fails _)) fun tokenId => ?_
    refine .bind (lift_fails (AccountId.parse_fails _)) fun account => ?_
    refine .bind (Amount.value_fails _ _) fun amount => ?_
    exact edit_fails (TransferData.addToken_fails _ _ _ _ _ _)
  · refine .bind (Amount.value_fails _ _) fun serial => ?_
    split
    · exact .error rfl
    · refine .bind (lift_fails (TokenId.parse_fails _)) fun tokenId => ?_
      refine .bind (lift_fails (AccountId.parse_fails _)) fun sender => ?_
      refine .bind (lift_fails (AccountId.parse_fails _)) fun receiver => ?_
      exact edit_fails (TransferData.addNft_fails _ _ _ _ _)
  · exact .error rfl

namespace TransferParams

/-- Parameters that cannot be read are wrong. -/
theorem parse_fails (params : Json) : FailsOnly OfParams (parse params) := by
  unfold parse
  split
  · exact .ok _
  · exact .error rfl

variable (p : TransferParams) (draft : Draft)

/-- A memo that is not set is an error of the parameters. -/
theorem setMemo_fails : FailsOnly OfParams (p.setMemo draft) := by
  unfold setMemo
  split
  · exact lift_fails (draft.setMemo_fails _)
  · exact .ok draft

/-- So is a fee. -/
theorem setFee_fails : FailsOnly OfParams (p.setFee draft) := by
  unfold setFee
  split
  · refine .bind (Amount.value_fails _ _) fun fee => ?_
    split
    · exact .error rfl
    · exact .ok _
  · exact .ok draft

/-- The draft with some entries added one after the other. -/
def addAll (entries : List TransferParam) (draft : Draft) : Except ErrorObject Draft :=
  entries.foldlM (fun draft entry => entry.addTo draft) draft

/-- The draft in three steps. -/
theorem draft_eq :
    p.draft = (addAll p.transfers {}).bind fun draft => (p.setMemo draft).bind p.setFee := rfl

/-- So parameters that describe no draft are wrong, whichever step fails. -/
theorem draft_fails : FailsOnly OfParams p.draft :=
  .bind (.foldlM (fun draft entry => entry.addTo_fails draft) _ _) fun draft =>
    .bind (p.setMemo_fails draft) p.setFee_fails

/-- What is wrong with parameters: an entry, where those before it could be added; or else the memo;
or else the fee. -/
inductive Wrong (p : TransferParams) : ErrorObject → Prop
  | entry {before after : List TransferParam} {entry : TransferParam} {draft : Draft}
      {e : ErrorObject} (split : p.transfers = before ++ entry :: after)
      (added : addAll before {} = .ok draft) (wrong : entry.addTo draft = .error e) : Wrong p e
  | memo {draft : Draft} {e : ErrorObject} (added : addAll p.transfers {} = .ok draft)
      (wrong : p.setMemo draft = .error e) : Wrong p e
  | fee {draft noted : Draft} {e : ErrorObject} (added : addAll p.transfers {} = .ok draft)
      (memo : p.setMemo draft = .ok noted) (wrong : p.setFee noted = .error e) : Wrong p e

variable {p} {e : ErrorObject}

/-- What is wrong is the error that is reported, whatever comes after it. -/
theorem draft_of_wrong (h : p.Wrong e) : p.draft = .error e := by
  rw [draft_eq]
  cases h with
  | entry split added wrong =>
    -- The entries before it were added, so the fold stops at this one with its error.
    have hadded : addAll p.transfers {} = .error e := by
      rw [split, addAll, List.foldlM_append]
      rw [addAll] at added
      rw [added]
      show Except.bind _ _ = _
      rw [Except.bind, List.foldlM_cons, wrong]
      rfl
    rw [hadded]
    rfl
  | memo added wrong =>
    -- The memo is looked at after all entries, and the fee after the memo.
    rw [added, Except.bind, wrong]
    rfl
  | fee added memo wrong => rw [added, Except.bind, memo, Except.bind, wrong]

end TransferParams

/-- Parameters that describe no draft are wrong. -/
theorem Service.draftOf_fails (params : Json) : FailsOnly OfParams (draftOf params) :=
  .bind (TransferParams.parse_fails params) fun p => p.draft_fails

end Rpc

end LedgerClient
