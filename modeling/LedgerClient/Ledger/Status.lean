/-!
# `LedgerClient.Ledger.Status`: the verdicts of a node

A node answers every request with one of these codes, and a receipt
carries a second one for what consensus made of the transaction. The
order of the constructors is the order of the codes' numbers.
-/

set_option autoImplicit false

namespace LedgerClient

/-- A status code. -/
inductive Status where
  | ok
  | success
  | busy
  | unknown
  | platformNotActive
  | platformTransactionNotCreated
  | receiptNotFound
  | transactionExpired
  | invalidTransactionStart
  | invalidSignature
  | invalidAccountId
  | invalidNodeAccount
  | invalidTokenId
  | insufficientPayerBalance
  | insufficientAccountBalance
  | insufficientTxFee
  | duplicateTransaction
  | payerAccountNotFound
  | accountRepeatedInAccountAmounts
  | invalidAccountAmounts
  | transferListSizeLimitExceeded
  | memoTooLong
  | spenderDoesNotHaveAllowance
  | unexpectedTokenDecimals
deriving DecidableEq, Repr, Inhabited

namespace Status

/-- The codes in the order of their numbers. -/
def all : List Status :=
  [.ok, .success, .busy, .unknown, .platformNotActive, .platformTransactionNotCreated,
   .receiptNotFound, .transactionExpired, .invalidTransactionStart, .invalidSignature,
   .invalidAccountId, .invalidNodeAccount, .invalidTokenId, .insufficientPayerBalance,
   .insufficientAccountBalance, .insufficientTxFee, .duplicateTransaction,
   .payerAccountNotFound, .accountRepeatedInAccountAmounts, .invalidAccountAmounts,
   .transferListSizeLimitExceeded, .memoTooLong, .spenderDoesNotHaveAllowance,
   .unexpectedTokenDecimals]

/-- The name of a code, in which it is written and shown. -/
def name : Status → String
  | .ok => "OK"
  | .success => "SUCCESS"
  | .busy => "BUSY"
  | .unknown => "UNKNOWN"
  | .platformNotActive => "PLATFORM_NOT_ACTIVE"
  | .platformTransactionNotCreated => "PLATFORM_TRANSACTION_NOT_CREATED"
  | .receiptNotFound => "RECEIPT_NOT_FOUND"
  | .transactionExpired => "TRANSACTION_EXPIRED"
  | .invalidTransactionStart => "INVALID_TRANSACTION_START"
  | .invalidSignature => "INVALID_SIGNATURE"
  | .invalidAccountId => "INVALID_ACCOUNT_ID"
  | .invalidNodeAccount => "INVALID_NODE_ACCOUNT"
  | .invalidTokenId => "INVALID_TOKEN_ID"
  | .insufficientPayerBalance => "INSUFFICIENT_PAYER_BALANCE"
  | .insufficientAccountBalance => "INSUFFICIENT_ACCOUNT_BALANCE"
  | .insufficientTxFee => "INSUFFICIENT_TX_FEE"
  | .duplicateTransaction => "DUPLICATE_TRANSACTION"
  | .payerAccountNotFound => "PAYER_ACCOUNT_NOT_FOUND"
  | .accountRepeatedInAccountAmounts => "ACCOUNT_REPEATED_IN_ACCOUNT_AMOUNTS"
  | .invalidAccountAmounts => "INVALID_ACCOUNT_AMOUNTS"
  | .transferListSizeLimitExceeded => "TRANSFER_LIST_SIZE_LIMIT_EXCEEDED"
  | .memoTooLong => "MEMO_TOO_LONG"
  | .spenderDoesNotHaveAllowance => "SPENDER_DOES_NOT_HAVE_ALLOWANCE"
  | .unexpectedTokenDecimals => "UNEXPECTED_TOKEN_DECIMALS"

/-- The name of a code as a value of its kind is shown, without underscores. -/
def shown : Status → String
  | .ok => "Ok"
  | .success => "Success"
  | .busy => "Busy"
  | .unknown => "Unknown"
  | .platformNotActive => "PlatformNotActive"
  | .platformTransactionNotCreated => "PlatformTransactionNotCreated"
  | .receiptNotFound => "ReceiptNotFound"
  | .transactionExpired => "TransactionExpired"
  | .invalidTransactionStart => "InvalidTransactionStart"
  | .invalidSignature => "InvalidSignature"
  | .invalidAccountId => "InvalidAccountId"
  | .invalidNodeAccount => "InvalidNodeAccount"
  | .invalidTokenId => "InvalidTokenId"
  | .insufficientPayerBalance => "InsufficientPayerBalance"
  | .insufficientAccountBalance => "InsufficientAccountBalance"
  | .insufficientTxFee => "InsufficientTxFee"
  | .duplicateTransaction => "DuplicateTransaction"
  | .payerAccountNotFound => "PayerAccountNotFound"
  | .accountRepeatedInAccountAmounts => "AccountRepeatedInAccountAmounts"
  | .invalidAccountAmounts => "InvalidAccountAmounts"
  | .transferListSizeLimitExceeded => "TransferListSizeLimitExceeded"
  | .memoTooLong => "MemoTooLong"
  | .spenderDoesNotHaveAllowance => "SpenderDoesNotHaveAllowance"
  | .unexpectedTokenDecimals => "UnexpectedTokenDecimals"

/-- The number of a code: its place among all of them. -/
def number (s : Status) : Nat :=
  all.idxOf s

/-- The code with a number. -/
def ofNumber? (n : Nat) : Option Status :=
  all[n]?

/-- The code with a name. -/
def ofName? (name : String) : Option Status :=
  all.find? fun s => s.name = name

/-- The codes by which a node says "not now, try another". -/
def isTransient : Status → Bool
  | .busy | .platformNotActive | .platformTransactionNotCreated => true
  | _ => false

/-- A status is read back from its number. -/
theorem ofNumber?_number (s : Status) : ofNumber? s.number = some s := by
  cases s <;> rfl

end Status

end LedgerClient
