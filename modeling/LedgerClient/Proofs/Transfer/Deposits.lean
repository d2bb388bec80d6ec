import LedgerClient.Transfer.Entries
import Mathlib.Algebra.Ring.Int.Defs

/-!
# `LedgerClient.Proofs.Transfer.Deposits`: what additions come to

The hbar entries and the token entries of a transfer are kept by one
rule, and this module states what the rule comes to without looking at
any list of entries. A `Deposit` is one accepted addition to a key: an
account, or a token and an account. From all deposits, in order, the
entry of a key is known:

* `total`: its amount is the sum of all that was ever deposited, as an
  integer, and when that is zero there is no entry;
* `latest?`: its approval flag is that of the latest deposit;
* `createdAt?`: it was created, for the last time, by the last deposit
  that found the sum at zero, and entries stand in this order;
* `decimals?`: of the decimals, only those given since then count, and
  the latest of them.

`Balances` says all this of a list of entries,
`Balances.add_of_inRange` that adding a deposit keeps it, and
`Balances.add_of_not_inRange` that this only fails when the sum leaves
the range of 64 bits.
-/

set_option autoImplicit false

namespace LedgerClient

/-- An accepted addition to what stands under a key. An entry has the same parts. -/
structure Deposit (κ : Type) where
  key : κ
  amount : Int64
  isApproved : Bool
  decimals : Option UInt32
deriving DecidableEq, Repr

/-- An integer that has room in 64 bits with a sign. -/
def InRange (n : Int) : Prop := -2 ^ 63 ≤ n ∧ n < 2 ^ 63

/-! ### Adding to a list -/

namespace TransferData

/-- The sum of two amounts is exact, or there is none because it has no room. -/
theorem accumulate_cases (current amount : Int64) :
    (InRange (current.toInt + amount.toInt) ∧
      ∃ sum, accumulate current amount = .ok sum ∧ sum.toInt = current.toInt + amount.toInt) ∨
    (¬ InRange (current.toInt + amount.toInt) ∧
      accumulate current amount = .error (.invalidArgument (.totalOverflow current amount))) := by
  -- The bounds of the addition are those of sixty-four bits.
  have hrange : (Int64.minValue.toInt ≤ current.toInt + amount.toInt ∧
      current.toInt + amount.toInt ≤ Int64.maxValue.toInt) ↔
      InRange (current.toInt + amount.toInt) := by
    rw [Int64.toInt_minValue, Int64.toInt_maxValue, InRange]
    omega
  unfold accumulate sum?
  by_cases h : Int64.minValue.toInt ≤ current.toInt + amount.toInt ∧
      current.toInt + amount.toInt ≤ Int64.maxValue.toInt
  · have hin := hrange.1 h
    exact .inl ⟨hin, _, by simp only [h, and_self, if_true], Int64.toInt_ofInt_of_le hin.1 hin.2⟩
  · exact .inr ⟨fun hin => h (hrange.2 hin), by simp only [h, if_false]⟩

variable {α β : Type} {same : α → Bool} {merge : α → Except Error (Option α)} {new : α}

/-- What no entry is the same as is added at the end. -/
theorem addTo_of_forall {entries : List α} (h : ∀ e ∈ entries, same e = false) :
    addTo same merge new entries = .ok (entries ++ [new]) := by
  induction entries with
  | nil => rfl
  | cons e rest ih =>
    obtain ⟨he, hrest⟩ := List.forall_mem_cons.1 h
    simp [addTo, he, ih hrest, Except.map]

/-- What an entry is the same as is merged into it where it stands, or takes it away. -/
theorem addTo_append {xs ys : List α} {e : α} (hxs : ∀ x ∈ xs, same x = false)
    (he : same e = true) : addTo same merge new (xs ++ e :: ys) =
      (merge e).map fun merged => xs ++ merged.toList ++ ys := by
  -- The entries in front are another key's, so adding passes over them one by one.
  induction xs with
  | nil =>
    simp only [List.nil_append, addTo, he, if_true]
    cases merge e with
    | error => rfl
    | ok merged => cases merged <;> rfl
  | cons x xs ih =>
    obtain ⟨hx, hxs⟩ := List.forall_mem_cons.1 hxs
    simp only [List.cons_append, addTo, hx, Bool.false_eq_true, if_false, ih hxs]
    cases merge e <;> rfl

/-- Adding to a list is adding to what the list is seen as, if merging is. -/
theorem addTo_map (view : α → β) (new : α) {same' : β → Bool} {merge' : β → Except Error (Option β)}
    (hsame : ∀ e, same' (view e) = same e)
    (hmerge : ∀ e, merge' (view e) = (merge e).map (Option.map view)) (entries : List α) :
    addTo same' merge' (view new) (entries.map view) =
      (addTo same merge new entries).map (List.map view) := by
  -- The view commutes with both choices: whether an entry is the same, and what it merges to.
  induction entries with
  | nil => rfl
  | cons e rest ih =>
    simp only [List.map_cons, addTo, hsame]
    cases same e with
    | true =>
      simp only [if_true, hmerge]
      cases merge e with
      | error => rfl
      | ok merged => cases merged <;> rfl
    | false =>
      simp only [Bool.false_eq_true, if_false, ih]
      cases addTo same merge new rest <;> rfl

end TransferData

namespace Deposit

variable {κ : Type} [DecidableEq κ]

/-! ### What deposits come to -/

/-- The deposits to a key. -/
def underKey (key : κ) (deposits : List (Deposit κ)) : List (Deposit κ) :=
  deposits.filter fun d => d.key = key

/-- The sum of what was deposited to a key. -/
def total (key : κ) (deposits : List (Deposit κ)) : Int :=
  ((underKey key deposits).map fun d => d.amount.toInt).sum

/-- The latest deposit to a key. -/
def latest? (key : κ) (deposits : List (Deposit κ)) : Option (Deposit κ) :=
  (underKey key deposits).getLast?

/-- The place of the last deposit to a key that found the sum at zero. -/
def createdAt? (key : κ) (deposits : List (Deposit κ)) : Option Nat :=
  ((List.range deposits.length).filter fun i =>
    (deposits[i]?.any fun d => d.key = key) ∧ total key (deposits.take i) = 0).getLast?

/-- The latest decimals that were given for a key since it was last created. -/
def decimals? (key : κ) (deposits : List (Deposit κ)) : Option UInt32 :=
  match createdAt? key deposits with
  | some i => ((underKey key (deposits.drop i)).filterMap Deposit.decimals).getLast?
  | none => none

section
variable (key : κ) (deposits : List (Deposit κ)) (d : Deposit κ)

/-- One more deposit is under its own key and no other. -/
theorem underKey_concat :
    underKey key (deposits ++ [d]) = underKey key deposits ++ if d.key = key then [d] else [] := by
  by_cases h : d.key = key <;> simp [underKey, h]

/-- It adds to the sum under its key. -/
theorem total_concat :
    total key (deposits ++ [d]) =
      total key deposits + if d.key = key then d.amount.toInt else 0 := by
  by_cases h : d.key = key <;> simp [total, underKey_concat, h]

/-- It is the latest one under its key. -/
theorem latest?_concat :
    latest? key (deposits ++ [d]) = if d.key = key then some d else latest? key deposits := by
  by_cases h : d.key = key <;> simp [latest?, underKey_concat, h]

/-- A deposit creates what stands under its key if it finds the sum at zero. Which of the earlier
ones did is as it was. -/
theorem createdAt?_concat : createdAt? key (deposits ++ [d]) =
    if d.key = key ∧ total key deposits = 0 then some deposits.length
    else createdAt? key deposits := by
  -- Whether an earlier deposit created something depends on the deposits before it alone.
  have hearlier : (List.range deposits.length).filter (fun i =>
      ((deposits ++ [d])[i]?.any fun d => d.key = key) ∧
        total key ((deposits ++ [d]).take i) = 0) =
      (List.range deposits.length).filter fun i =>
        (deposits[i]?.any fun d => d.key = key) ∧ total key (deposits.take i) = 0 := by
    refine List.filter_congr fun i hi => ?_
    have hlt := List.mem_range.1 hi
    rw [List.getElem?_append_left hlt, List.take_append_of_le_length (Nat.le_of_lt hlt)]
  unfold createdAt?
  rw [List.length_append, List.length_singleton, List.range_succ, List.filter_append, hearlier,
    List.getLast?_append]
  by_cases h : d.key = key ∧ total key deposits = 0
  · simp [h]
  · simp [h]

/-- What was created has been created before now. -/
theorem createdAt?_lt {i : Nat} (h : createdAt? key deposits = some i) : i < deposits.length := by
  have hmem := List.mem_of_getLast? h
  exact List.mem_range.1 (List.mem_filter.1 hmem).1

/-- A deposit that creates what stands under its key leaves the decimals that it gives. -/
theorem decimals?_concat_of_total_eq_zero (h : total d.key deposits = 0) :
    decimals? d.key (deposits ++ [d]) = d.decimals := by
  rw [decimals?, createdAt?_concat, if_pos ⟨rfl, h⟩]
  cases hd : d.decimals <;> simp [underKey, hd]

/-- A deposit to what stands under its key replaces the decimals by those that it gives. -/
theorem decimals?_concat_of_total_ne_zero (h : total d.key deposits ≠ 0)
    (hcreated : (createdAt? d.key deposits).isSome) :
    decimals? d.key (deposits ++ [d]) = d.decimals.or (decimals? d.key deposits) := by
  obtain ⟨i, hi⟩ := Option.isSome_iff_exists.1 hcreated
  have hlt := createdAt?_lt d.key deposits hi
  simp only [decimals?, createdAt?_concat, h, and_false, if_false, hi,
    List.drop_append_of_le_length (Nat.le_of_lt hlt), underKey_concat, if_true,
    List.filterMap_append,
    List.getLast?_append]
  cases hd : d.decimals <;> simp [hd]

/-- A deposit to another key leaves the decimals. -/
theorem decimals?_concat_of_ne (h : d.key ≠ key) :
    decimals? key (deposits ++ [d]) = decimals? key deposits := by
  simp only [decimals?, createdAt?_concat, h, false_and, if_false]
  cases hi : createdAt? key deposits with
  | none => rfl
  | some i =>
    have hlt := createdAt?_lt key deposits hi
    simp only [List.drop_append_of_le_length (Nat.le_of_lt hlt), underKey_concat, h, if_false,
      List.append_nil]

end

/-! ### One entry -/

/-- The entry is what the deposits to its key have come to. -/
structure Describes (deposits : List (Deposit κ)) (e : Deposit κ) : Prop where
  amount : e.amount.toInt = total e.key deposits
  isApproved : (latest? e.key deposits).map Deposit.isApproved = some e.isApproved
  created : (createdAt? e.key deposits).isSome
  decimals : e.decimals = decimals? e.key deposits

section
variable {deposits : List (Deposit κ)} {d e : Deposit κ}

/-- A deposit to another key says nothing about an entry. -/
theorem Describes.concat_of_ne (h : Describes deposits e) (hne : d.key ≠ e.key) :
    Describes (deposits ++ [d]) e where
  amount := by simp [total_concat, hne, h.amount]
  isApproved := by simp [latest?_concat, hne, h.isApproved]
  created := by simp [createdAt?_concat, hne, h.created]
  decimals := by rw [decimals?_concat_of_ne _ _ _ hne, h.decimals]

/-- The first deposit to a key, or the first since its sum was zero, is its entry. -/
theorem describes_concat_self (h : total d.key deposits = 0) : Describes (deposits ++ [d]) d where
  amount := by simp [total_concat, h]
  isApproved := by simp [latest?_concat]
  created := by simp [createdAt?_concat, h]
  decimals := by rw [decimals?_concat_of_total_eq_zero _ _ h]

/-- A deposit to the key of an entry makes it the entry with the sum of both, the approval flag of
the deposit, and its decimals if it gives any. -/
theorem Describes.concat_of_eq (h : Describes deposits e) (hkey : e.key = d.key)
    (htotal : total d.key deposits ≠ 0) {sum : Int64}
    (hsum : sum.toInt = e.amount.toInt + d.amount.toInt) :
    Describes (deposits ++ [d]) ⟨e.key, sum, d.isApproved, d.decimals.or e.decimals⟩ := by
  obtain ⟨key, amount, isApproved, decimals⟩ := e
  cases hkey
  exact {
    amount := by simp [total_concat, hsum, h.amount]
    isApproved := by simp [latest?_concat]
    created := by simp [createdAt?_concat, htotal, h.created]
    decimals := by rw [decimals?_concat_of_total_ne_zero _ _ htotal h.created, ← h.decimals] }

end

/-! ### All entries -/

/-- What stands under one key was created before what stands under another. -/
def CreatedBefore (deposits : List (Deposit κ)) (key key' : κ) : Prop :=
  ∃ i j, createdAt? key deposits = some i ∧ createdAt? key' deposits = some j ∧ i < j

/-- The entries are what the deposits have come to: one for each key whose sum is not zero, in the
order in which they were created, and each as `Describes` says. -/
structure Balances (deposits entries : List (Deposit κ)) : Prop where
  present : ∀ key, key ∈ entries.map Deposit.key ↔ total key deposits ≠ 0
  distinct : (entries.map Deposit.key).Nodup
  ordered : (entries.map Deposit.key).Pairwise (CreatedBefore deposits)
  described : ∀ e ∈ entries, Describes deposits e

/-- Without a deposit there is no entry. -/
theorem balances_nil : Balances ([] : List (Deposit κ)) [] :=
  ⟨fun key => by simp [total, underKey], List.nodup_nil, .nil, nofun⟩

section
variable {deposits entries xs ys : List (Deposit κ)} {d e : Deposit κ}

/-- A deposit does not change when the entries that there are were created. -/
theorem Balances.createdAt?_concat (h : Balances deposits entries) {key : κ}
    (hkey : key ∈ entries.map Deposit.key) :
    createdAt? key (deposits ++ [d]) = createdAt? key deposits := by
  rw [Deposit.createdAt?_concat, if_neg fun hzero => (h.present key).1 hkey hzero.2]

/-- A deposit does not change the order of the entries that there are. -/
theorem Balances.ordered_concat (h : Balances deposits entries) :
    (entries.map Deposit.key).Pairwise (CreatedBefore (deposits ++ [d])) := by
  refine h.ordered.imp_of_mem fun {key key'} hkey hkey' hbefore => ?_
  rw [CreatedBefore, h.createdAt?_concat hkey, h.createdAt?_concat hkey']
  exact hbefore

/-- No other entry has the key of an entry. -/
theorem Balances.key_ne (h : Balances deposits (xs ++ e :: ys)) :
    ∀ other ∈ xs ++ ys, e.key ≠ other.key := by
  -- Keys are distinct, so an equal one would stand on both sides of the entry.
  have hdistinct := h.distinct
  rw [List.map_append, List.map_cons] at hdistinct
  obtain ⟨-, hcons, hapart⟩ := List.nodup_append.1 hdistinct
  intro other hother
  rcases List.mem_append.1 hother with hx | hy
  · exact (hapart other.key (List.mem_map_of_mem hx) e.key List.mem_cons_self).symm
  · intro hkey
    exact (List.nodup_cons.1 hcons).1 (hkey ▸ List.mem_map_of_mem hy)

/-- A deposit that finds the sum at zero is a new entry at the end. -/
theorem Balances.new (h : Balances deposits entries) (htotal : total d.key deposits = 0)
    (hamount : d.amount ≠ 0) : Balances (deposits ++ [d]) (entries ++ [d]) := by
  have hnew : d.key ∉ entries.map Deposit.key := fun hmem => (h.present d.key).1 hmem htotal
  have hmap : (entries ++ [d]).map Deposit.key = entries.map Deposit.key ++ [d.key] := by simp
  refine ⟨fun key => ?_, ?_, ?_, fun e he => ?_⟩
  · rw [hmap, List.mem_append, List.mem_singleton, total_concat, h.present key]
    by_cases hkey : d.key = key
    · have hamount' : d.amount.toInt ≠ 0 := fun hzero => hamount (Int64.toInt_inj.1 hzero)
      subst hkey
      simp [htotal, hamount']
    · simp [hkey, Ne.symm hkey]
  · rw [hmap]
    refine List.nodup_append.2 ⟨h.distinct, by simp, fun key hkey key' hkey' => ?_⟩
    rintro rfl
    exact hnew (List.mem_singleton.1 hkey' ▸ hkey)
  · rw [hmap]
    -- The entries that there are were created by deposits before this one.
    refine List.pairwise_append.2 ⟨h.ordered_concat, List.pairwise_singleton _ _, ?_⟩
    intro key hkey key' hkey'
    cases List.mem_singleton.1 hkey'
    obtain ⟨e, he, rfl⟩ := List.mem_map.1 hkey
    obtain ⟨i, hi⟩ := Option.isSome_iff_exists.1 (h.described e he).created
    refine ⟨i, deposits.length, ?_, ?_, createdAt?_lt e.key deposits hi⟩
    · rw [h.createdAt?_concat hkey, hi]
    · rw [Deposit.createdAt?_concat, if_pos ⟨rfl, htotal⟩]
  · rcases List.mem_append.1 he with he | he
    · exact (h.described e he).concat_of_ne fun hkey => hnew (hkey ▸ List.mem_map_of_mem he)
    · cases List.mem_singleton.1 he
      exact describes_concat_self htotal

/-- A deposit that does not bring the sum to zero stays in the place of the entry. -/
theorem Balances.replace (h : Balances deposits (xs ++ e :: ys)) (hkey : e.key = d.key)
    {sum : Int64} (hsum : sum.toInt = e.amount.toInt + d.amount.toInt) (hne : sum ≠ 0) :
    Balances (deposits ++ [d])
      (xs ++ ⟨e.key, sum, d.isApproved, d.decimals.or e.decimals⟩ :: ys) := by
  have he : e ∈ xs ++ e :: ys := by simp
  have htotal : total d.key deposits ≠ 0 := (h.present d.key).1 (hkey ▸ List.mem_map_of_mem he)
  -- The keys are the same as before, so only the amounts have to be looked at.
  have hmap : (xs ++ ⟨e.key, sum, d.isApproved, d.decimals.or e.decimals⟩ :: ys).map Deposit.key =
      (xs ++ e :: ys).map Deposit.key := by simp
  refine ⟨fun key => ?_, hmap ▸ h.distinct, hmap ▸ h.ordered_concat, fun other hother => ?_⟩
  · rw [hmap, h.present key, total_concat]
    by_cases hd : d.key = key
    · have hsum' : total key deposits + d.amount.toInt ≠ 0 := by
        rw [← hd, ← hkey, ← (h.described e he).amount, ← hsum]
        exact fun hzero => hne (Int64.toInt_inj.1 hzero)
      rw [if_pos hd]
      exact iff_of_true (hd ▸ htotal) hsum'
    · rw [if_neg hd, Int.add_zero]
  · rcases List.mem_append.1 hother with hx | hy
    · exact (h.described other (by simp [hx])).concat_of_ne
        (hkey ▸ h.key_ne other (by simp [hx]))
    · rcases List.mem_cons.1 hy with rfl | hy
      · exact (h.described e he).concat_of_eq hkey htotal hsum
      · exact (h.described other (by simp [hy])).concat_of_ne
          (hkey ▸ h.key_ne other (by simp [hy]))

/-- A deposit that brings the sum to zero takes the entry away. -/
theorem Balances.remove (h : Balances deposits (xs ++ e :: ys)) (hkey : e.key = d.key)
    (hzero : e.amount.toInt + d.amount.toInt = 0) :
    Balances (deposits ++ [d]) (xs ++ ys) := by
  have he : e ∈ xs ++ e :: ys := by simp
  have hsublist : ((xs ++ ys).map Deposit.key).Sublist ((xs ++ e :: ys).map Deposit.key) :=
    ((List.sublist_cons_self e ys).append_left xs).map Deposit.key
  refine ⟨fun key => ?_, h.distinct.sublist hsublist, h.ordered_concat.sublist hsublist,
    fun other hother => ?_⟩
  · -- The key of the deposit is gone from the entries as its sum is gone from the deposits.
    by_cases hd : d.key = key
    · have hgone : key ∉ (xs ++ ys).map Deposit.key := by
        intro hmem
        obtain ⟨other, hother, hother_key⟩ := List.mem_map.1 hmem
        exact h.key_ne other hother (hkey.trans (hd.trans hother_key.symm))
      have hsum : total key (deposits ++ [d]) = 0 := by
        rw [total_concat, if_pos hd, ← hd, ← hkey, ← (h.described e he).amount, hzero]
      exact iff_of_false hgone (not_not_intro hsum)
    · rw [total_concat, if_neg hd, Int.add_zero, ← h.present key]
      simp [hkey, Ne.symm hd]
  · refine (h.described other ?_).concat_of_ne (hkey ▸ h.key_ne other hother)
    exact ((List.sublist_cons_self e ys).append_left xs).subset hother

end

/-! ### Adding a deposit -/

/-- What becomes of an entry by a deposit to its key. -/
def mergeInto (d e : Deposit κ) : Except Error (Option (Deposit κ)) :=
  (TransferData.accumulate e.amount d.amount).map fun sum =>
    if sum = 0 then none else some ⟨e.key, sum, d.isApproved, d.decimals.or e.decimals⟩

/-- The entries after a deposit. -/
def add (d : Deposit κ) (entries : List (Deposit κ)) : Except Error (List (Deposit κ)) :=
  TransferData.addTo (fun e => e.key = d.key) d.mergeInto d entries

section
variable {deposits entries : List (Deposit κ)} {d : Deposit κ}

/-- Where the entries are the balances of the deposits, a deposit is merged into the entry of its
key, if there is one. -/
theorem Balances.split (h : Balances deposits entries) (htotal : total d.key deposits ≠ 0) :
    ∃ xs e ys, entries = xs ++ e :: ys ∧ e.key = d.key ∧
      e.amount.toInt = total d.key deposits ∧
      d.add entries = (d.mergeInto e).map fun merged => xs ++ merged.toList ++ ys := by
  obtain ⟨e, he, hkey⟩ := List.mem_map.1 ((h.present d.key).2 htotal)
  obtain ⟨xs, ys, rfl⟩ := List.append_of_mem he
  refine ⟨xs, e, ys, rfl, hkey, hkey ▸ (h.described e he).amount, ?_⟩
  refine TransferData.addTo_append (fun x hx => ?_) (by simpa using hkey)
  simpa using fun hx' => h.key_ne x (by simp [hx]) (hkey.trans hx'.symm)

/-- A deposit that has room is added. -/
theorem Balances.add_of_inRange (h : Balances deposits entries) (hamount : d.amount ≠ 0)
    (hrange : InRange (total d.key deposits + d.amount.toInt)) :
    ∃ entries', d.add entries = .ok entries' ∧ Balances (deposits ++ [d]) entries' := by
  -- Without a sum there is no entry, and the deposit becomes one. With a sum it is merged into its
  -- entry.
  by_cases htotal : total d.key deposits = 0
  · refine ⟨entries ++ [d], TransferData.addTo_of_forall fun e he => ?_, h.new htotal hamount⟩
    have hne : e.key ≠ d.key := fun hkey =>
      (h.present d.key).1 (hkey ▸ List.mem_map_of_mem he) htotal
    simpa using hne
  · obtain ⟨xs, e, ys, rfl, hkey, hamount_eq, hadd⟩ := h.split htotal
    rw [hadd, mergeInto]
    rcases TransferData.accumulate_cases e.amount d.amount with
      ⟨-, sum, hok, hsum⟩ | ⟨hout, -⟩
    · rw [hok]
      by_cases hzero : sum = 0
      · refine ⟨xs ++ ys, by simp [Except.map, hzero], h.remove hkey ?_⟩
        rw [← hsum, hzero, Int64.toInt_zero]
      · exact ⟨_, by simp [Except.map, hzero], h.replace hkey hsum hzero⟩
    · exact absurd (hamount_eq ▸ hrange) hout

/-- A deposit that has no room is not added. -/
theorem Balances.add_of_not_inRange (h : Balances deposits entries)
    (hrange : ¬ InRange (total d.key deposits + d.amount.toInt)) :
    ∃ e, d.add entries = .error e := by
  by_cases htotal : total d.key deposits = 0
  · -- A single amount always has room.
    rw [htotal, Int.zero_add] at hrange
    exact absurd ⟨d.amount.le_toInt, d.amount.toInt_lt⟩ hrange
  · obtain ⟨xs, e, ys, rfl, hkey, hamount_eq, hadd⟩ := h.split htotal
    rw [hadd, mergeInto]
    rcases TransferData.accumulate_cases e.amount d.amount with ⟨hin, -⟩ | ⟨-, herror⟩
    · exact absurd (hamount_eq ▸ hin) hrange
    · exact ⟨_, by rw [herror]; rfl⟩

end

end Deposit

end LedgerClient
