import LedgerClient.Proofs.Json.Size
import LedgerClient.Proofs.Request.Sending
import LedgerClient.Proofs.Rpc.TransferParams
import LedgerClient.Proofs.Transfer.Extent
import LedgerClient.Rpc.Http

/-!
# `LedgerClient.Proofs.Rpc.Bodies`: the bodies that parameters ask for

`Asked.body` is the body that parameters ask for, as a function of the
transaction's name and of the node. It holds what they say, exactly: the
amounts are sums of integers, and the NFTs are in order
(`Asked.Drafted.exact`).

A call submits such a body with the operator's signature alone
(`Submits`). That a node can read it back takes a bound on its length,
and the bound is there because the parameters came in a body of a
request: they ask for no more additions than that has bytes
(`Asked.By.length_le`).
-/

set_option autoImplicit false

namespace LedgerClient

/-- A signature has sixty-four bytes. -/
theorem Crypto.Ed25519.length_sign (secret message : Bytes) :
    (sign secret message).length = 64 := by
  simp [sign, Edwards.Point.encode]

/-- What an operator signs alone can be read if the body is not too long. -/
theorem Operator.fits_signed {op : Operator} {body : Wire.TransactionBody}
    (h : (Wire.TransactionBody.codec.encode body).length < UInt64.size) :
    Wire.SignedTransaction.codec.Fits (op.signed body) := by
  refine ⟨h, show 1 < UInt64.size by decide, List.forall_mem_singleton.2 ⟨trivial, ?_⟩⟩
  show (Crypto.Ed25519.sign _ _).length < UInt64.size
  rw [Crypto.Ed25519.length_sign]
  decide

namespace Rpc

namespace Asked

variable (asked : Asked)

/-- The operation that is asked for: the additions made one after the other. -/
def operation : Wire.Operation :=
  (History.of asked.additions).data.toOperation

/-- The body that is asked for, under a name and for a node. It is valid for two minutes. -/
def body (id : TransactionId) (node : AccountId) : Wire.TransactionBody where
  transactionId := id.toWire
  nodeAccountId := node
  transactionFee := asked.fee
  validDurationSecs := 120
  memo := asked.memo
  operation := asked.operation

/-- The operation says what is asked for: for each account, and for each token and account, the
exact sum of the amounts unless that is zero, and the moves of the NFTs of a token in their
order. -/
structure Exact : Prop where
  hbar : ∀ account,
    let sum := Deposit.total account (asked.additions.filterMap Addition.hbarDeposit?)
    asked.operation.hbarAmounts account = if sum = 0 then [] else [sum]
  tokens : ∀ token account,
    let sum := Deposit.total (token, account) (asked.additions.filterMap Addition.tokenDeposit?)
    asked.operation.tokenAmounts token account = if sum = 0 then [] else [sum]
  nfts : ∀ token, asked.operation.nftMoves token =
    ((asked.additions.filterMap Addition.nftMove?).filter fun move =>
      move.nftId.tokenId = token).map NftMove.toWire

variable {asked}

/-- The draft of what is asked for has the body that is asked for. -/
theorem Drafted.bodyFor_eq {d : Draft} (h : asked.Drafted d) (id : TransactionId)
    (node : AccountId) : d.bodyFor id node = asked.body id node := by
  rw [Draft.bodyFor, h.fee, h.memo, h.data, h.validDuration]
  rfl

/-- What is drafted says what is asked for. -/
theorem Drafted.exact {d : Draft} (h : asked.Drafted d) : asked.Exact := by
  have hexact := History.of_exact asked.additions
  -- The draft accepted every addition, so the history of the accepted ones is all that was asked
  -- for.
  refine ⟨fun account => ?_, fun token account => ?_, fun token => ?_⟩
  · have := hexact.hbarAmounts_eq account
    rwa [h.accepted] at this
  · have := hexact.tokenAmounts_eq token account
    rwa [h.accepted] at this
  · have := hexact.nftMoves_eq token
    rwa [h.accepted] at this

/-- Parameters ask for at most as many additions as they have places. -/
theorem By.length_le {params : Json} (h : asked.By params) :
    asked.additions.length ≤ params.places := by
  obtain ⟨entries, hentries, hasks⟩ := h.additions
  calc asked.additions.length = entries.length := hasks.length_eq.symm
    _ ≤ (Json.list entries).places := Json.length_le_places entries
    _ ≤ params.places := Json.places_of_part? hentries

/-- The body of what is drafted has a length, if that came in a body of a request. -/
theorem Drafted.fits {d : Draft} (h : asked.Drafted d)
    (hlimit : asked.additions.length ≤ Http.bodyLimit) (id : TransactionId) (node : AccountId) :
    Wire.TransactionBody.codec.Fits (asked.body id node) ∧
      (Wire.TransactionBody.codec.encode (asked.body id node)).length < UInt64.size := by
  obtain ⟨t, ht, hextent⟩ := (History.of_exact asked.additions).extent_le
  have hlength := (asked.body id node).length_encode_le (t := t) ht
  have hmemo : (asked.body id node).memo.utf8ByteSize ≤ 100 := h.short
  have hbody : Http.bodyLimit = 2097152 := rfl
  have hsize : UInt64.size = 18446744073709551616 := rfl
  rw [h.accepted] at hextent
  -- The entries of the transfer were each written in the body of the request, so the bound on that
  -- body bounds what they take up here.
  constructor
  · rw [Wire.TransactionBody.codec_fits_iff, Bytes.length_ofText]
    refine ⟨by omega, ?_⟩
    rw [show (asked.body id node).operation = .cryptoTransfer t from ht]
    exact Wire.CryptoTransfer.announced_of_extent_lt (by omega)
  · omega

end Asked

/-- A call submits what is asked for: the body for its node, which the operator signed and nobody
else. -/
structure Submits (op : Operator) (asked : Asked) (id : TransactionId) (call : Call) : Prop where
  /-- What a node reads in the request. -/
  request : Wire.Request.codec.decode? call.request =
    some (.submitTransaction (op.signed (asked.body id call.node.accountId)))
  /-- What it then reads in the body. -/
  body : Wire.TransactionBody.codec.decode?
    (op.signed (asked.body id call.node.accountId)).bodyBytes =
      some (asked.body id call.node.accountId)

/-- A call that sends the body of a draft of what is asked for submits that. -/
theorem Asked.Drafted.submits {asked : Asked} {d : Draft} (h : asked.Drafted d)
    (hlimit : asked.additions.length ≤ Http.bodyLimit) {op : Operator} {id : TransactionId}
    {call : Call} (hrequest : call.request =
      requestBytes (.submitTransaction (op.signed (d.bodyFor id call.node.accountId)))) :
    Submits op asked id call := by
  obtain ⟨hfits, hlength⟩ := h.fits hlimit id call.node.accountId
  refine ⟨?_, Wire.TransactionBody.codec_lawful.decode?_encode hfits⟩
  rw [hrequest, h.bodyFor_eq]
  exact Wire.Request.codec_lawful.decode?_encode (Operator.fits_signed hlength)

end Rpc

end LedgerClient
