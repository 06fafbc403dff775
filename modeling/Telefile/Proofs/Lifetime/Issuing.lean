import Mathlib.Data.Set.Card
import Telefile.Proofs.Descriptors

/-!
# A table and the calls on it

A table gives out numbers one after the other until the largest is out, and from then on none. Which
number an attempt gets and what is stored can be told from the calls alone, and the table is not asked.

* `TableCall`, `DescriptorTable.following`, `DescriptorTable.tableAfter` — calls, one after the other;
* `attempts`, `nthNumber` — the number that an attempt gets;
* `Stores` — a file was stored under a number, and not taken out since (`stores_snoc`);
* `DescriptorTable.Tallies` — a table against the calls on it; `Tallies.step` — each call keeps that;
* **`DescriptorTable.counts_up_and_stops`** — numbers, files and sizes after all sequences of calls.
-/

namespace Telefile

variable {φ : Type}

/-! ## 1. Calls -/

/-- A call on a table. -/
inductive TableCall (φ : Type)
  | allocate
  /-- A file is stored under a fresh number. -/
  | store (f : φ)
  | lookup (fd : Fd)
  | remove (fd : Fd)
  | contains (fd : Fd)
  deriving DecidableEq, Repr

/-- Whether a call asks for a number. -/
def TableCall.asks : TableCall φ → Bool
  | allocate | store _ => true
  | lookup _ | remove _ | contains _ => false

namespace DescriptorTable

/-- The table after a call. A call that comes to nothing leaves it as it was. -/
def following (t : DescriptorTable φ) : TableCall φ → DescriptorTable φ
  | .allocate => (t.allocate.map Prod.snd).getD t
  | .store f => ((t.open? f).map Prod.snd).getD t
  | .remove fd => ((t.remove fd).map Prod.snd).getD t
  | .lookup _ | .contains _ => t

/-- A table that starts after `s`, when all the calls have been made. -/
def tableAfter (s : Fd) (calls : List (TableCall φ)) : DescriptorTable φ :=
  calls.foldl following (startingAfter s)

theorem tableAfter_snoc (s : Fd) (calls : List (TableCall φ)) (c : TableCall φ) :
    tableAfter s (calls ++ [c]) = (tableAfter s calls).following c := by
  unfold tableAfter
  rw [List.foldl_append]
  rfl

/-- The number that an attempt would get. -/
def next? (t : DescriptorTable φ) : Option Fd :=
  if t.last < maxDescriptor then some (t.last + 1) else none

section Following

variable (t : DescriptorTable φ)

theorem allocate_eq : t.allocate = t.next?.map fun fd => (fd, { t with last := fd }) := by
  unfold allocate next?
  split <;> rfl

theorem open?_eq (f : φ) : t.open? f =
    t.next?.map fun fd => (fd, ({ t with last := fd } : DescriptorTable φ).insert fd f) := by
  unfold open?
  rw [allocate_eq, Option.map_map]
  rfl

theorem following_allocate :
    t.following .allocate = t.next?.elim t fun fd => { t with last := fd } := by
  show (t.allocate.map Prod.snd).getD t = _
  rw [allocate_eq]
  cases t.next? <;> rfl

theorem following_store (f : φ) : t.following (.store f) =
    t.next?.elim t fun fd => ({ t with last := fd } : DescriptorTable φ).insert fd f := by
  show ((t.open? f).map Prod.snd).getD t = _
  rw [open?_eq]
  cases t.next? <;> rfl

/-- What is taken out is gone, whether it was there or not. -/
theorem lookup_following_remove (fd q : Fd) :
    (t.following (.remove fd)).lookup q = if q = fd then none else t.lookup q := by
  show (((t.remove fd).map Prod.snd).getD t).lookup q = _
  cases hremove : t.remove fd with
  | some r => exact lookup_of_remove hremove q
  | none =>
    have hnone : t.lookup fd = none := by
      unfold remove at hremove
      exact Option.map_eq_none_iff.mp hremove
    show t.lookup q = _
    split
    · next hq => rw [hq, hnone]
    · rfl

/-- The counter goes up with each attempt that gets a number, and with nothing else. -/
theorem last_following (c : TableCall φ) :
    (t.following c).last = if c.asks then t.next?.getD t.last else t.last := by
  cases c with
  | allocate =>
    rw [following_allocate]
    cases t.next? <;> rfl
  | store f =>
    rw [following_store]
    cases t.next? <;> rfl
  | remove fd =>
    show (((t.remove fd).map Prod.snd).getD t).last = t.last
    cases hremove : t.remove fd with
    | none => rfl
    | some r => exact last_of_remove hremove
  | _ => rfl

variable {t}

/-- **What is stored after a call**: what was stored by it, and what was stored before and has not been
taken out. -/
theorem lookup_following {fd : Fd} {f : φ} (hlast : ∀ {fd f}, t.lookup fd = some f → fd ≤ t.last)
    (c : TableCall φ) : (t.following c).lookup fd = some f ↔
      c = .store f ∧ t.next? = some fd ∨ t.lookup fd = some f ∧ c ≠ .remove fd := by
  cases c with
  | allocate =>
    have hsame : (t.following .allocate).lookup fd = t.lookup fd := by
      rw [following_allocate]
      cases t.next? <;> rfl
    simp [hsame]
  | store g =>
    rw [following_store]
    cases hnext : t.next? with
    | none => simp
    | some q =>
      rw [Option.elim_some, lookup_insert]
      by_cases hfd : fd = q
      · -- nothing is stored under a number that comes next
        have hfresh : t.lookup fd ≠ some f := by
          intro hstored
          unfold next? at hnext
          rw [Option.ite_none_right_eq_some, Option.some.injEq] at hnext
          rw [← hnext.2] at hfd
          exact Int.not_le.mpr (Int.lt_succ t.last) (hfd ▸ hlast hstored)
        simp [hfd, hfd ▸ hfresh]
      · rw [if_neg hfd]
        simp [Ne.symm hfd, lookup]
  | remove q =>
    rw [lookup_following_remove]
    by_cases hfd : fd = q
    · simp [hfd]
    · simp [hfd, Ne.symm hfd]
  | _ => simp [following]

end Following

end DescriptorTable

/-! ## 2. What the calls tell -/

/-- How often the calls ask for a number. -/
def attempts (calls : List (TableCall φ)) : Nat := calls.countP TableCall.asks

/-- The `k`-th number after `s`, if there are so many. -/
def nthNumber (s : Fd) (k : Nat) : Option Fd :=
  if s + k ≤ maxDescriptor then some (s + k) else none

/-- The file `f` was stored under the number `fd`, which the attempt got, and has not been taken out
since. -/
def Stores (s : Fd) (calls : List (TableCall φ)) (fd : Fd) (f : φ) : Prop :=
  ∃ before after, calls = before ++ .store f :: after ∧
    nthNumber s (attempts before + 1) = some fd ∧ .remove fd ∉ after

section Told

variable {s fd : Fd} {calls : List (TableCall φ)} {c : TableCall φ} {f : φ} {k : Nat}

theorem attempts_snoc : attempts (calls ++ [c]) = attempts calls + if c.asks then 1 else 0 := by
  unfold attempts
  rw [List.countP_append, List.countP_singleton]

theorem nthNumber_eq_some_iff : nthNumber s k = some fd ↔ fd = s + k ∧ fd ≤ maxDescriptor := by
  unfold nthNumber
  rw [Option.ite_none_right_eq_some, Option.some.injEq]
  constructor
  · rintro ⟨hle, rfl⟩
    exact ⟨rfl, hle⟩
  · rintro ⟨rfl, hle⟩
    exact ⟨hle, rfl⟩

theorem not_stores_nil : ¬ Stores s [] fd f := by
  rintro ⟨before, after, h, -⟩
  simp at h

/-- A file is stored if that has just been done, or if it was stored and has not just been taken
out. -/
theorem stores_snoc : Stores s (calls ++ [c]) fd f ↔
    c = .store f ∧ nthNumber s (attempts calls + 1) = some fd ∨
      Stores s calls fd f ∧ c ≠ .remove fd := by
  constructor
  · rintro ⟨before, after, heq, hnumber, hkept⟩
    rcases List.eq_nil_or_concat after with rfl | ⟨middle, x, rfl⟩
    · obtain ⟨rfl, hc⟩ := List.append_inj' heq rfl
      exact .inl ⟨List.singleton_inj.mp hc, hnumber⟩
    · rw [List.concat_eq_append] at heq hkept
      rw [← List.cons_append, ← List.append_assoc] at heq
      obtain ⟨rfl, hc⟩ := List.append_inj' heq rfl
      obtain rfl := List.singleton_inj.mp hc
      refine .inr ⟨⟨before, middle, rfl, hnumber, fun h => hkept (List.mem_append_left _ h)⟩, ?_⟩
      rintro rfl
      exact hkept (List.mem_append_right _ List.mem_cons_self)
  · rintro (⟨rfl, hnumber⟩ | ⟨⟨before, after, rfl, hnumber, hkept⟩, hc⟩)
    · exact ⟨calls, [], rfl, hnumber, List.not_mem_nil⟩
    · refine ⟨before, after ++ [c], by simp, hnumber, fun h => ?_⟩
      rcases List.mem_append.mp h with h | h
      · exact hkept h
      · exact hc (List.mem_singleton.mp h).symm

/-- What is stored has a number that there is, and that the attempts have come to. -/
theorem Stores.le (h : Stores s calls fd f) : fd ≤ s + attempts calls ∧ fd ≤ maxDescriptor := by
  obtain ⟨before, after, rfl, hnumber, -⟩ := h
  obtain ⟨rfl, hmax⟩ := nthNumber_eq_some_iff.mp hnumber
  have hle : attempts before + 1 ≤ attempts (before ++ .store f :: after) := by
    unfold attempts
    rw [List.countP_append, List.countP_cons_of_pos rfl]
    omega
  exact ⟨Int.add_le_add_left (Int.ofNat_le.mpr hle) s, hmax⟩

end Told

/-! ## 3. A table against the calls on it -/

namespace DescriptorTable

/-- The counter has kept count as long as there are numbers, and what is stored is what the calls
tell. -/
structure Tallies (s : Fd) (calls : List (TableCall φ)) (t : DescriptorTable φ) : Prop where
  last_le : t.last ≤ s + attempts calls
  last_eq : t.last < maxDescriptor → t.last = s + attempts calls
  lookup_iff : ∀ {fd f}, t.lookup fd = some f ↔ Stores s calls fd f

namespace Tallies

variable {s : Fd} {calls : List (TableCall φ)} {t : DescriptorTable φ}

theorem start (s : Fd) : Tallies s [] (startingAfter s : DescriptorTable φ) where
  last_le := Int.le_add_of_nonneg_right (Int.natCast_nonneg _)
  last_eq _ := (Int.add_zero s).symm
  lookup_iff {fd f} := by
    rw [lookup_startingAfter]
    exact ⟨fun h => (by cases h), fun h => absurd h not_stores_nil⟩

/-- **The next attempt** gets the number that the count tells, or none. -/
theorem next?_eq (h : Tallies s calls t) : t.next? = nthNumber s (attempts calls + 1) := by
  have hle := h.last_le
  unfold next? nthNumber
  by_cases hlast : t.last < maxDescriptor
  · have hnext : s + (attempts calls + 1 : Nat) = t.last + 1 := by
      rw [h.last_eq hlast]
      exact (Int.add_assoc s (attempts calls) 1).symm
    rw [if_pos hlast, hnext, if_pos (Int.add_one_le_of_lt hlast)]
  · have hout : ¬ s + (attempts calls + 1 : Nat) ≤ maxDescriptor := by
      unfold Fd at *
      omega
    rw [if_neg hlast, if_neg hout]

/-- What is stored has a number that was given out. -/
theorem le_last (h : Tallies s calls t) {fd : Fd} {f : φ} (hstored : t.lookup fd = some f) :
    fd ≤ t.last := by
  obtain ⟨hcount, hmax⟩ := (h.lookup_iff.mp hstored).le
  by_cases hlast : t.last < maxDescriptor
  · exact h.last_eq hlast ▸ hcount
  · exact Int.le_trans hmax (Int.not_lt.mp hlast)

/-- The counter keeps count of attempts, or stays where it is when there are no more numbers. -/
theorem counted (h : Tallies s calls t) (c : TableCall φ) :
    (t.following c).last ≤ s + attempts (calls ++ [c]) ∧
      ((t.following c).last < maxDescriptor →
        (t.following c).last = s + attempts (calls ++ [c])) := by
  have hle := h.last_le
  have heq := h.last_eq
  rw [last_following, attempts_snoc]
  cases c.asks with
  | false => exact ⟨hle, heq⟩
  | true =>
    unfold next?
    rw [if_pos rfl, if_pos rfl]
    unfold Fd at *
    split
    · rw [Option.getD_some]
      omega
    · rw [Option.getD_none]
      omega

/-- **Each call keeps the tally.** -/
theorem step (h : Tallies s calls t) (c : TableCall φ) :
    Tallies s (calls ++ [c]) (t.following c) where
  last_le := (h.counted c).1
  last_eq := (h.counted c).2
  lookup_iff {fd f} := by
    rw [lookup_following h.le_last, stores_snoc, h.next?_eq, h.lookup_iff]

end Tallies

theorem tallies (s : Fd) (calls : List (TableCall φ)) : Tallies s calls (tableAfter s calls) := by
  induction calls using List.reverseRecOn with
  | nil => exact .start s
  | append_singleton calls c ih =>
    rw [tableAfter_snoc]
    exact ih.step c

/-! ## 4. Numbers, files and sizes -/

/-- The size is the number of descriptors that have a file. -/
theorem encard_eq_size (t : DescriptorTable φ) :
    {fd | ∃ f, t.lookup fd = some f}.encard = t.size := by
  have hset : {fd | ∃ f, t.lookup fd = some f} = (t.files.keys.toFinset : Set Fd) := by
    ext fd
    rw [List.coe_toFinset, Set.mem_ofPred_eq, Set.mem_ofPred_eq, Dictionary.mem_keys_iff,
      Option.isSome_iff_exists]
    rfl
  have hnodup : t.files.keys.Nodup := t.files.nodup
  rw [hset, Set.encard_coe_eq_coe_finsetCard, List.toFinset_card_of_nodup hnodup]
  exact congrArg _ (List.length_map Prod.fst)

theorem isEmpty_iff (t : DescriptorTable φ) : t.isEmpty = true ↔ ∀ fd, t.lookup fd = none := by
  refine ⟨fun hempty fd => ?_, isEmpty_of_lookup⟩
  have hsize : t.files.pairs.length = 0 := beq_iff_eq.mp hempty
  show Dictionary.find fd t.files.pairs = none
  rw [List.eq_nil_of_length_eq_zero hsize]
  rfl

/-- **The allocator counts up and stops.** After any calls on a table that starts after `s`, the next
attempt to get a number, which is the `k`-th, gets `s + k` if that is a descriptor, and else none. It
changes no entry but the one it stores. What is stored under a number is the file of the open that
got the number, unless it has been taken out since; looking, taking out, asking whether a number has a
file, and the size all agree on that. -/
theorem counts_up_and_stops (s : Fd) (calls : List (TableCall φ)) :
    let t := tableAfter s calls
    let next := nthNumber s (attempts calls + 1)
    (t.allocate.map Prod.fst = next ∧ (t.following .allocate).files = t.files) ∧
    (∀ f, (t.open? f).map Prod.fst = next ∧
      (t.following (.store f)).files = next.elim t.files fun fd => t.files.insert fd f) ∧
    (∀ fd f, t.lookup fd = some f ↔ Stores s calls fd f) ∧
    (∀ fd, (t.remove fd).map Prod.fst = t.lookup fd) ∧
    (∀ fd, t.contains fd = true ↔ ∃ f, Stores s calls fd f) ∧
    {fd | ∃ f, Stores s calls fd f}.encard = t.size ∧
    (t.isEmpty = true ↔ ∀ fd f, ¬ Stores s calls fd f) := by
  intro t next
  have htally := tallies s calls
  have hnext : t.next? = next := htally.next?_eq
  refine ⟨⟨?_, ?_⟩, fun f => ⟨?_, ?_⟩, fun fd f => htally.lookup_iff, fun fd => ?_, fun fd => ?_, ?_,
    ?_⟩
  · rw [allocate_eq, hnext, Option.map_map]
    exact Option.map_id'
  · rw [following_allocate]
    cases t.next? <;> rfl
  · rw [open?_eq, hnext, Option.map_map]
    exact Option.map_id'
  · rw [following_store, hnext]
    cases next <;> rfl
  · unfold remove
    rw [Option.map_map]
    exact Option.map_id'
  · show (t.lookup fd).isSome = true ↔ _
    simp only [Option.isSome_iff_exists, ← htally.lookup_iff]
    rfl
  · simp only [← htally.lookup_iff]
    exact t.encard_eq_size
  · rw [isEmpty_iff]
    simp only [← htally.lookup_iff, Option.eq_none_iff_forall_ne_some]
    rfl

/-- A file under the last number; an attempt that gets none; the number given back is not given out
again. -/
example : (tableAfter (maxDescriptor - 1)
    [.store 'a', .allocate, .remove maxDescriptor, .store 'b']).files.pairs = [] := by
  decide

end DescriptorTable

end Telefile
