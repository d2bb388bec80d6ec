import LedgerClient.Proofs.Json.Fields
import LedgerClient.Proofs.Request.Primary
import LedgerClient.Proofs.Transfer.Collection
import LedgerClient.Proofs.Transfer.Extent

/-!
# `LedgerClient.Proofs.Transfer.Settings`: what was set is what is signed

A draft is made by calls: some set its memo, its fee ceiling, its window, its
nodes or its name, and others add to its lists. `Terms.of` says what a list of
calls comes to without looking at any draft: the last call of each kind counts,
and all additions do. `Reflects` says that a draft stands at these terms.
`Reflects.step` is the lemma for one more call that is accepted, and
`reflects_of_applyAll` the induction over all of them.

A body has the same terms wherever it is met: built from the draft, from what
was frozen, or read back from the bytes that are signed (`Carries`). Freezing,
whether for a client or not, changes nothing of a draft but its nodes and its
name (`Freezes.exists_eq`), and signing changes no byte of a body
(`Freezes.binds`).

The window is the exception. A call may ask for any number of seconds of 64
bits but zero, and a body has a signed field of 64 bits for it. Below `2 ^ 63`
the field is the number (`Carries.whole`), and from there on it is negative
(`Carries.positive`), so that of two accepted windows the longer one may be over
before it begins (`wide_window_turns_negative`).
-/

set_option autoImplicit false

namespace LedgerClient

namespace Draft

/-! ### Calls -/

/-- The length of a window as it is asked for: seconds of 64 bits, and less than another one
besides. -/
structure Window where
  seconds : UInt64
  nanos : Nat
  nanos_lt : nanos < 1000000000

/-- The window in nanoseconds. -/
def Window.length (w : Window) : Duration := w.seconds.toNat * second + w.nanos

/-- Its whole seconds are those that are asked for. -/
theorem Window.length_div_second (w : Window) : w.length / second = w.seconds.toNat := by
  have hnanos := w.nanos_lt
  show (w.seconds.toNat * 1000000000 + w.nanos) / 1000000000 = w.seconds.toNat
  omega

/-- A call that changes a draft. -/
inductive Setting where
  | memo (text : String)
  | fee (tinybars : UInt64)
  | window (length : Window)
  | nodeIds (ids : List AccountId)
  | transactionId (id : TransactionId)
  | addition (a : Addition)

namespace Setting

/-- Makes the call. -/
def apply (d : Draft) : Setting → Except Error Draft
  | memo text => d.setMemo text
  | fee tinybars => .ok (d.setFee tinybars)
  | window w => d.setValidDuration w.length
  | nodeIds ids => d.setNodeIds ids
  | transactionId id => .ok (d.setTransactionId id)
  | addition a => d.edit a.apply

/-- The memo that is set, if one is. -/
def memo? : Setting → Option String
  | memo text => some text
  | _ => none

/-- The fee ceiling that is set, if one is. -/
def fee? : Setting → Option UInt64
  | fee tinybars => some tinybars
  | _ => none

/-- The window that is set, if one is. -/
def window? : Setting → Option Window
  | window w => some w
  | _ => none

/-- The nodes that are set, if any are. -/
def nodeIds? : Setting → Option (List AccountId)
  | nodeIds ids => some ids
  | _ => none

/-- The name that is set, if one is. -/
def transactionId? : Setting → Option TransactionId
  | transactionId id => some id
  | _ => none

/-- The addition, if it is one. -/
def addition? : Setting → Option Addition
  | addition a => some a
  | _ => none

variable {β : Type} (kind : Setting → Option β) (settings : List Setting) (s : Setting)

/-- The last value of a kind that was set, if any was. -/
def last? : Option β := (settings.filterMap kind).getLast?

/-- The last call counts if it is of the kind, and otherwise those before it. -/
theorem last?_concat : last? kind (settings ++ [s]) = (kind s).or (last? kind settings) := by
  cases hs : kind s <;> simp [last?, hs]

end Setting

/-- Makes some calls on a new draft, one after the other, of which none may be refused. -/
def applyAll (settings : List Setting) : Except Error Draft :=
  settings.foldlM Setting.apply {}

/-- A window of at least a second is accepted. -/
theorem applyAll_window_cons {w : Window} {settings : List Setting} (h : 1 ≤ w.seconds.toNat) :
    applyAll (.window w :: settings) =
      settings.foldlM Setting.apply { validDuration := w.length } := by
  have haccepted : Setting.apply {} (.window w) = .ok { validDuration := w.length } := by
    rw [Setting.apply, setValidDuration, if_neg]
    rw [w.length_div_second]
    exact Nat.ne_of_gt h
  rw [applyAll, List.foldlM_cons, haccepted]
  rfl

/-- What a transaction is to say, and what it is to be called and where it is to go if that was
set. -/
structure Terms where
  memo : String
  fee : UInt64
  /-- The whole seconds of the window. -/
  seconds : UInt64
  nodeIds : Option (List AccountId)
  transactionId : Option TransactionId
  additions : List Addition

namespace Terms

/-- What some calls come to. -/
def of (settings : List Setting) : Terms where
  memo := (Setting.last? Setting.memo? settings).getD ""
  fee := (Setting.last? Setting.fee? settings).getD defaultFee
  seconds := ((Setting.last? Setting.window? settings).map Window.seconds).getD 120
  nodeIds := Setting.last? Setting.nodeIds? settings
  transactionId := Setting.last? Setting.transactionId? settings
  additions := settings.filterMap Setting.addition?

/-- The terms after one more call. -/
def after (t : Terms) : Setting → Terms
  | .memo text => { t with memo := text }
  | .fee tinybars => { t with fee := tinybars }
  | .window w => { t with seconds := w.seconds }
  | .nodeIds ids => { t with nodeIds := some ids }
  | .transactionId id => { t with transactionId := some id }
  | .addition a => { t with additions := t.additions ++ [a] }

/-- One more call takes the place of the last of its kind, or joins the additions. -/
theorem of_concat (settings : List Setting) (s : Setting) :
    of (settings ++ [s]) = (of settings).after s := by
  simp only [of, Setting.last?_concat, List.filterMap_append]
  cases s <;> simp [after, Setting.memo?, Setting.fee?, Setting.window?, Setting.nodeIds?,
    Setting.transactionId?, Setting.addition?]

/-- The operation that the additions come to. -/
def operation (t : Terms) : Wire.Operation := (History.of t.additions).data.toOperation

end Terms

/-- The draft stands at the terms, which are such as are accepted. -/
structure Reflects (d : Draft) (t : Terms) : Prop where
  memo : d.memo = t.memo
  short : t.memo.utf8ByteSize ≤ maxMemoBytes
  fee : d.fee = t.fee
  seconds : d.validDuration / second = t.seconds.toNat
  lasting : 1 ≤ t.seconds.toNat
  nodeIds : d.nodeIds = t.nodeIds
  transactionId : d.transactionId = t.transactionId
  data : d.data = (History.of t.additions).data
  accepted : (History.of t.additions).accepted = t.additions

/-- A new draft is what comes of no calls. -/
theorem reflects_new : Reflects {} (Terms.of []) := by
  refine ⟨rfl, ?_, rfl, rfl, ?_, rfl, rfl, rfl, rfl⟩
  · show "".utf8ByteSize ≤ 100
    decide
  · show 1 ≤ (120 : UInt64).toNat
    decide

section
variable {d d' : Draft} {t : Terms}

/-- One more call that is accepted: the draft has what the call sets, and everything else as it
was. -/
theorem Reflects.step {s : Setting} (h : d.Reflects t) (happly : s.apply d = .ok d') :
    d'.Reflects (t.after s) := by
  -- One case for each setter. A refused call is no step, and an accepted one changes one field.
  cases s with
  | memo text =>
    simp only [Setting.apply, setMemo] at happly
    split at happly
    next hsize =>
      cases happly
      exact { h with memo := rfl, short := hsize }
    next => cases happly
  | fee tinybars =>
    cases happly
    exact { h with fee := rfl }
  | window w =>
    simp only [Setting.apply, setValidDuration] at happly
    split at happly
    next => cases happly
    next hlasting =>
      cases happly
      rw [w.length_div_second] at hlasting
      exact { h with seconds := w.length_div_second, lasting := Nat.one_le_iff_ne_zero.2 hlasting }
  | nodeIds ids =>
    simp only [Setting.apply, setNodeIds] at happly
    split at happly
    next => cases happly
    next =>
      cases happly
      exact { h with nodeIds := rfl }
  | transactionId id =>
    cases happly
    exact { h with transactionId := rfl }
  | addition a =>
    obtain ⟨data, hadded, rfl⟩ := map_eq_ok.1 happly
    rw [h.data] at hadded
    -- The history accepts what the draft does.
    have hnext : History.of (t.additions ++ [a]) =
        ⟨data, (History.of t.additions).accepted ++ [a]⟩ := by
      rw [History.of_concat, History.step,
        show a.apply (History.of t.additions).data = .ok data from hadded]
    have hdata : data = (History.of (t.additions ++ [a])).data := by rw [hnext]
    have haccepted : (History.of (t.additions ++ [a])).accepted = t.additions ++ [a] := by
      rw [hnext, h.accepted]
    exact { h with data := hdata, accepted := haccepted }

/-- A draft stands at what the calls come to that made it. -/
theorem reflects_of_applyAll {settings : List Setting} (h : applyAll settings = .ok d) :
    d.Reflects (Terms.of settings) := by
  -- The induction is from the end, since the last call meets the draft that the others made.
  induction settings using List.reverseRecOn generalizing d with
  | nil =>
    cases h
    exact reflects_new
  | append_singleton settings s ih =>
    rw [applyAll, List.foldlM_append, bind_eq_ok] at h
    obtain ⟨before, hbefore, hlast⟩ := h
    rw [List.foldlM_cons, bind_eq_ok] at hlast
    obtain ⟨after, happly, hafter⟩ := hlast
    cases hafter
    rw [Terms.of_concat]
    exact (ih hbefore).step happly

end

/-! ### Bodies -/

/-- A body carries the terms, under a name and for a node. -/
structure Carries (t : Terms) (id : TransactionId) (node : AccountId)
    (b : Wire.TransactionBody) : Prop where
  transactionId : b.transactionId = id.toWire
  nodeAccountId : b.nodeAccountId = node
  memo : b.memo = t.memo
  short : b.memo.utf8ByteSize ≤ 100
  fee : b.transactionFee = t.fee
  operation : b.operation = t.operation
  /-- The window is as many seconds as it was set to, if that has room in the field. -/
  whole : b.validDurationSecs.toInt = t.seconds.toNat ↔ t.seconds.toNat < 2 ^ 63
  /-- Otherwise it is not even a window. -/
  positive : 1 ≤ b.validDurationSecs.toInt ↔ t.seconds.toNat < 2 ^ 63

/-- A number of 64 bits in a field with a sign keeps its bits. From the middle on they stand for a
number that is `2 ^ 64` less. -/
theorem toInt_ofNat_toNat (n : UInt64) : (Int64.ofNat n.toNat).toInt =
    if n.toNat < 2 ^ 63 then (n.toNat : Int) else n.toNat - 2 ^ 64 := by
  have hlt := n.toNat_lt
  split
  next hroom => exact Int64.toInt_ofNat_of_lt hroom
  next hroom =>
    rw [Int64.toInt_ofNat']
    show (n.toNat : Int).bmod 18446744073709551616 = n.toNat - 2 ^ 64
    rw [Int.bmod_def]
    split <;> omega

section
variable {d : Draft} {t : Terms}

/-- The body for a node carries what the draft stands at. -/
theorem Reflects.carries (h : d.Reflects t) (id : TransactionId) (node : AccountId) :
    Carries t id node (d.bodyFor id node) := by
  -- The window is the only field that is converted, and it keeps its bits.
  have hseconds : (d.bodyFor id node).validDurationSecs.toInt =
      if t.seconds.toNat < 2 ^ 63 then (t.seconds.toNat : Int) else t.seconds.toNat - 2 ^ 64 := by
    show (Int64.ofNat (d.validDuration / second)).toInt = _
    rw [h.seconds, toInt_ofNat_toNat]
  have hlasting := h.lasting
  have hlt := t.seconds.toNat_lt
  refine ⟨rfl, rfl, h.memo, ?_, h.fee, ?_, ?_, ?_⟩
  · show d.memo.utf8ByteSize ≤ 100
    rw [h.memo]
    exact h.short
  · show d.data.toOperation = t.operation
    rw [h.data, Terms.operation]
  · rw [hseconds]
    split <;> omega
  · rw [hseconds]
    split <;> omega

/-- The body inside a schedule carries the same, as far as it says anything. -/
theorem Reflects.scheduledBody_eq (h : d.Reflects t) :
    d.scheduledBody = ⟨t.fee, t.memo, t.operation⟩ := by
  rw [scheduledBody, h.fee, h.memo, h.data, Terms.operation]

/-- A body that carries some terms has a form, if they come of calls that can be counted. -/
theorem Reflects.fits (h : d.Reflects t) (hcount : t.additions.length < 2 ^ 63)
    (id : TransactionId) (node : AccountId) :
    Wire.TransactionBody.codec.Fits (d.bodyFor id node) := by
  have hcarries := h.carries id node
  -- Each accepted addition makes at most two places, so their number fits in sixty-four bits.
  obtain ⟨transfer, htransfer, hextent⟩ := (History.of_exact t.additions).extent_le
  have hshort := hcarries.short
  have hsize : UInt64.size = 2 ^ 64 := rfl
  rw [h.accepted] at hextent
  rw [Wire.TransactionBody.codec_fits_iff, Bytes.length_ofText, hcarries.operation,
    Terms.operation, htransfer]
  refine ⟨by omega, ?_⟩
  exact Wire.CryptoTransfer.announced_of_extent_lt (by omega)

end

/-! ### Freezing and signing -/

/-- What comes of freezing a draft, by itself or for a client. -/
inductive Freezes (d : Draft) (f : Frozen) : Prop
  | byItself (h : d.freeze = .ok f)
  | forClient (client : Client) (now : Time) (start : Timestamp)
      (h : (d.freezeWith client now start).1 = .ok f)

section
variable {d : Draft} {f : Frozen}

/-- Freezing only changes the nodes and the name of a draft, and these only if there are none. -/
theorem Freezes.exists_eq (h : d.Freezes f) : ∃ id nodes,
    f = { d with nodeIds := some nodes, transactionId := some id }.freezeAs id nodes ∧
      (∀ id', d.transactionId = some id' → id = id') ∧
      ∀ ids, d.nodeIds = some ids → nodes = ids := by
  -- A client gives what is missing, and what is there already goes first.
  cases h with
  | byItself h =>
    obtain ⟨id, nodes, hid, hnodes, rfl⟩ := freeze_eq_ok h
    refine ⟨id, nodes, ?_, ?_, ?_⟩
    · rw [← hid, ← hnodes]
    · intro id' hid'
      exact Option.some.inj (hid.symm.trans hid')
    · intro ids hids
      exact Option.some.inj (hnodes.symm.trans hids)
  | forClient client now start h =>
    have hname := (freezeWith_eq_ok h).1
    rw [freezeWith_eq, hname] at h
    refine ⟨f.transactionId, d.nodesFor now client.network, (Except.ok.inj h).symm, ?_, ?_⟩
    · intro id' hid'
      rw [nameFor, hid', Option.some_or] at hname
      exact (Option.some.inj hname).symm
    · intro ids hids
      rw [nodesFor, hids, Option.getD_some]

/-- A frozen transaction says what the draft says, and has the bytes of it for its nodes. -/
structure Binds (d : Draft) (f : Frozen) : Prop where
  transactionId : ∀ id, d.transactionId = some id → f.transactionId = id
  nodeIds : ∀ ids, d.nodeIds = some ids → f.nodeIds = ids
  body : ∀ node, f.body node = d.bodyFor f.transactionId node
  scheduledBody : f.draft.scheduledBody = d.scheduledBody
  signed : ∀ node ∈ f.nodeIds, ∃ signed, f.signed node = .ok signed ∧
    signed.bodyBytes = Wire.TransactionBody.codec.encode (f.body node)

/-- Whoever signs after freezing changes nothing of what is said. -/
theorem Freezes.binds (h : d.Freezes f) (history : List Signing) :
    d.Binds (f.afterAll history) := by
  obtain ⟨id, nodes, hf, hname, haddressed⟩ := h.exists_eq
  have hfrozen : ({ d with nodeIds := some nodes, transactionId := some id } : Draft).freeze =
      .ok f := by
    rw [hf]
    rfl
  -- Signatures change neither the draft nor the bytes, so the bodies are those that were frozen.
  have hcollected := (Collected.freeze hfrozen).afterAll history
  generalize f.afterAll history = g at hcollected
  have hid : g.transactionId = id := by
    rw [hcollected.transactionId, hf]
    rfl
  have hbody : ∀ node, g.body node = d.bodyFor g.transactionId node := by
    intro node
    rw [Frozen.body, hcollected.draft, hf]
    rfl
  have hnodes : g.nodeIds = nodes := by
    have hpairs := congrArg (List.map Prod.fst) hcollected.bodies
    simp only [List.map_map, Function.comp_def] at hpairs
    rw [Frozen.nodeIds, hpairs, hf]
    simp [freezeAs, Function.comp_def]
  refine ⟨?_, ?_, hbody, ?_, ?_⟩
  · intro id' hid'
    rw [hid, hname id' hid']
  · intro ids hids
    rw [hnodes, haddressed ids hids]
  · rw [hcollected.draft, hf]
    rfl
  · intro node hnode
    obtain ⟨b, hfound, hb, rfl⟩ := Frozen.bodyAt?_of_mem hnode
    refine ⟨⟨b.bytes, b.signatures.toWire⟩, by rw [Frozen.signed, hfound], ?_⟩
    -- The bytes are still those that were frozen for the node.
    have hpair : (b.node, b.bytes) ∈ f.bodies.map fun b => (b.node, b.bytes) := by
      rw [← hcollected.bodies]
      exact List.mem_map_of_mem hb
    obtain ⟨b', hb', hsame⟩ := List.mem_map.1 hpair
    rw [hf] at hb'
    obtain ⟨node, -, rfl⟩ := List.mem_map.1 hb'
    obtain ⟨hnode', hbytes⟩ := Prod.mk.inj hsame
    show b.bytes = Wire.TransactionBody.codec.encode (g.body b.node)
    rw [hbody, hid, ← hbytes, ← hnode']
    rfl

end

/-- What was set is what is signed, for all calls on a new draft of which none is refused. A body
for a node, with the name that was set, carries the last memo, of at most a hundred bytes, the last
fee ceiling or the default, and all additions, and the body inside a schedule carries the same;
without a name there is no body. So do the bodies that are frozen, by itself or for a client, for
the nodes that were set, and the bytes that are signed, whoever signs them, are read back as bodies
that do. The window is of at least one second, and a body has it if it is of less than `2 ^ 63`
seconds, and no window otherwise. -/
theorem settings_reach_bodies {settings : List Setting} {d : Draft}
    (h : applyAll settings = .ok d) :
    let t := Terms.of settings
    1 ≤ t.seconds.toNat ∧
      (∀ id node, t.transactionId = some id → ∃ b, d.body node = .ok b ∧ Carries t id node b) ∧
      (t.transactionId = none → ∀ node, d.body node = .error (.illegalState .bodyWithoutId)) ∧
      d.scheduledBody = ⟨t.fee, t.memo, t.operation⟩ ∧
      ((∃ f, d.freeze = .ok f) ↔ t.transactionId.isSome ∧ t.nodeIds.isSome) ∧
      (∀ client now start, (∃ f, (d.freezeWith client now start).1 = .ok f) ↔
        t.transactionId.isSome ∨ client.operator.isSome) ∧
      ∀ start, d.Freezes start → ∀ history,
        let f := start.afterAll history
        (∀ id, t.transactionId = some id → f.transactionId = id) ∧
          (∀ ids, t.nodeIds = some ids → f.nodeIds = ids) ∧
          (∀ node, Carries t f.transactionId node (f.body node)) ∧
          f.draft.scheduledBody = ⟨t.fee, t.memo, t.operation⟩ ∧
          ∀ node ∈ f.nodeIds, ∃ signed, f.signed node = .ok signed ∧
            (t.additions.length < 2 ^ 63 → ∃ b,
              Wire.TransactionBody.codec.decoded signed.bodyBytes = .ok b ∧
                Carries t f.transactionId node b) := by
  intro t
  -- Everything follows from what the draft stands at after the calls.
  have hreflects : d.Reflects t := reflects_of_applyAll h
  refine ⟨hreflects.lasting, ?_, ?_, hreflects.scheduledBody_eq, ?_, ?_, ?_⟩
  · intro id node hid
    refine ⟨d.bodyFor id node, ?_, hreflects.carries id node⟩
    rw [Draft.body, hreflects.transactionId, hid]
  · intro hid node
    rw [Draft.body, hreflects.transactionId, hid]
  · rw [← hreflects.transactionId, ← hreflects.nodeIds, freeze]
    cases d.transactionId <;> cases d.nodeIds <;> simp
  · intro client now start
    rw [exists_freezeWith_eq_ok_iff, hreflects.transactionId]
  · intro start hfreezes history f
    -- What is frozen is bound to the draft, whoever signs it afterwards.
    have hbinds : d.Binds f := hfreezes.binds history
    have hcarries : ∀ node, Carries t f.transactionId node (f.body node) := by
      intro node
      rw [hbinds.body]
      exact hreflects.carries f.transactionId node
    refine ⟨?_, ?_, hcarries, ?_, ?_⟩
    · intro id hid
      exact hbinds.transactionId id (hreflects.transactionId.trans hid)
    · intro ids hids
      exact hbinds.nodeIds ids (hreflects.nodeIds.trans hids)
    · rw [hbinds.scheduledBody, hreflects.scheduledBody_eq]
    · intro node hnode
      obtain ⟨signed, hsigned, hbytes⟩ := hbinds.signed node hnode
      refine ⟨signed, hsigned, ?_⟩
      intro hcount
      refine ⟨f.body node, ?_, hcarries node⟩
      rw [hbytes, Wire.Codec.decoded_eq_ok_iff, hbinds.body]
      exact Wire.TransactionBody.codec_lawful.decode?_encode
        (hreflects.fits hcount f.transactionId node)

/-- The calls that set the name and the nodes. -/
def namedAndAddressed : List Setting :=
  [.transactionId ⟨⟨0, 0, 2⟩, ⟨1700000000, 0⟩⟩, .nodeIds [⟨0, 0, 3⟩, ⟨0, 0, 4⟩]]

/-- Calls of every kind, of which the memo is set twice. The window is the longest that there is
room for. -/
def roomySettings : List Setting :=
  .window ⟨9223372036854775807, 999999999, by decide⟩ ::
    [.memo "first", .fee 42, .addition (.hbar (.account ⟨0, 0, 5⟩) (-7) false), .memo "last"] ++
    namedAndAddressed

/-- They can be read in the bytes for the second node after two keys have signed. -/
theorem settings_reach_bodies_longestWindow :
    ∃ d start signed b, applyAll roomySettings = .ok d ∧ d.freeze = .ok start ∧
      (start.afterAll oneOrder).signed ⟨0, 0, 4⟩ = .ok signed ∧
      Wire.TransactionBody.codec.decoded signed.bodyBytes = .ok b ∧
      b.nodeAccountId = ⟨0, 0, 4⟩ ∧ b.memo = "last" ∧ b.transactionFee = 42 ∧
      b.validDurationSecs.toInt = 9223372036854775807 := by
  -- The window has whole seconds, and fewer than the number from which they would turn negative.
  obtain ⟨d, hmade⟩ : ∃ d, applyAll roomySettings = .ok d := by
    rw [roomySettings, List.cons_append, applyAll_window_cons (by decide)]
    exact ⟨_, rfl⟩
  obtain ⟨-, -, -, -, hfreeze, -, hreach⟩ := settings_reach_bodies hmade
  obtain ⟨start, hstart⟩ := hfreeze.2 ⟨rfl, rfl⟩
  obtain ⟨-, hnodes, -, -, hread⟩ := hreach start (.byItself hstart) oneOrder
  have hnode : (⟨0, 0, 4⟩ : AccountId) ∈ (start.afterAll oneOrder).nodeIds := by
    rw [hnodes _ rfl]
    decide
  obtain ⟨signed, hsigned, hdecoded⟩ := hread _ hnode
  have hcount : (Terms.of roomySettings).additions.length < 2 ^ 63 := by
    show 1 < 2 ^ 63
    decide
  obtain ⟨b, hb, hcarries⟩ := hdecoded hcount
  refine ⟨d, start, signed, b, hmade, hstart, hsigned, hb, hcarries.nodeAccountId,
    hcarries.memo, hcarries.fee, ?_⟩
  rw [hcarries.whole.2]
  · rfl
  · decide

/-- A second more is accepted as well, and makes a window that is over `2 ^ 63` seconds before it
begins. -/
theorem wide_window_turns_negative :
    let settings := .window ⟨9223372036854775808, 0, by decide⟩ :: namedAndAddressed
    ∃ d b, applyAll settings = .ok d ∧ d.body ⟨0, 0, 3⟩ = .ok b ∧
      (Terms.of settings).seconds.toNat = 9223372036854775808 ∧
      b.validDurationSecs.toInt = -9223372036854775808 ∧
      b.validDurationSecs.toInt ≠ (Terms.of settings).seconds.toNat ∧
      ¬ 1 ≤ b.validDurationSecs.toInt := by
  intro settings
  have hmade : applyAll settings = .ok
      { validDuration := Window.length ⟨9223372036854775808, 0, by decide⟩
        transactionId := some ⟨⟨0, 0, 2⟩, ⟨1700000000, 0⟩⟩
        nodeIds := some [⟨0, 0, 3⟩, ⟨0, 0, 4⟩] } := by
    rw [applyAll_window_cons (by decide)]
    rfl
  refine ⟨_, _, hmade, rfl, ?_⟩
  decide +kernel

end Draft

end LedgerClient
