/-!
# Finite maps as association lists

`Dictionary κ α` keeps its pairs in the order in which their keys were first inserted, each key
once. It serves the tree of entries (keyed by place), the descriptor table (keyed by
descriptor) and the sessions of a service.

* `get?` reads, `insert` writes in place or at the end, `erase` removes, `keys` lists;
* what each operation does to `get?` is one lemma per operation (`get?_insert`, `get?_erase`).
-/

namespace Telefile

/-- Pairs of keys and values, no key twice. -/
structure Dictionary (κ : Type) (α : Type) where
  pairs : List (κ × α)
  nodup : (pairs.map Prod.fst).Nodup

namespace Dictionary

variable {κ α : Type} [DecidableEq κ]

/-! ## 1. The pairs -/

/-- The value of the first pair with key `k`. -/
def find (k : κ) : List (κ × α) → Option α
  | [] => none
  | (k', a) :: rest => if k' = k then some a else find k rest

/-- Writes `a` where `k` stands, or at the end. -/
def put (k : κ) (a : α) : List (κ × α) → List (κ × α)
  | [] => [(k, a)]
  | (k', a') :: rest => if k' = k then (k, a) :: rest else (k', a') :: put k a rest

theorem mem_keys_put {k q : κ} {a : α} {l : List (κ × α)} :
    q ∈ (put k a l).map Prod.fst ↔ q = k ∨ q ∈ l.map Prod.fst := by
  induction l with
  | nil => simp [put]
  | cons p rest ih =>
    obtain ⟨k', a'⟩ := p
    by_cases h : k' = k
    · simp [put, h]
    · simp only [put, if_neg h, List.map_cons, List.mem_cons, ih]
      grind

theorem nodup_put {k : κ} {a : α} {l : List (κ × α)} (h : (l.map Prod.fst).Nodup) :
    ((put k a l).map Prod.fst).Nodup := by
  induction l with
  | nil => simp [put]
  | cons p rest ih =>
    obtain ⟨k', a'⟩ := p
    simp only [List.map_cons, List.nodup_cons] at h
    by_cases hk : k' = k
    · subst hk
      simpa only [put, if_true, List.map_cons, List.nodup_cons] using h
    · simp only [put, if_neg hk, List.map_cons, List.nodup_cons, mem_keys_put]
      exact ⟨fun hm => hm.elim hk h.1, ih h.2⟩

theorem find_put (k q : κ) (a : α) (l : List (κ × α)) :
    find q (put k a l) = if q = k then some a else find q l := by
  induction l with
  | nil => by_cases h : k = q <;> simp [put, find, h, eq_comm]
  | cons p rest ih =>
    obtain ⟨k', a'⟩ := p
    by_cases hk : k' = k
    · subst hk
      by_cases hq : k' = q
      · simp [put, find, hq]
      · simp [put, find, hq, Ne.symm hq]
    · simp only [put, if_neg hk, find, ih]
      by_cases hq : k' = q
      · subst hq; simp [hk]
      · simp [hq]

theorem put_of_find {k : κ} {a : α} {l : List (κ × α)} (h : find k l = some a) :
    put k a l = l := by
  induction l with
  | nil => cases h
  | cons p rest ih =>
    obtain ⟨k', a'⟩ := p
    by_cases hk : k' = k
    · subst hk
      simp only [find, if_true, Option.some.injEq] at h
      simp [put, h]
    · simp only [find, if_neg hk] at h
      simp only [put, if_neg hk, ih h]

/-- What is written twice is what is written last. -/
theorem put_put (k : κ) (a a' : α) (l : List (κ × α)) : put k a (put k a' l) = put k a l := by
  induction l with
  | nil => simp [put]
  | cons p rest ih =>
    obtain ⟨k', b⟩ := p
    by_cases h : k' = k <;> simp [put, h, ih]

theorem find_filter (p : κ → Bool) (q : κ) (l : List (κ × α)) :
    find q (l.filter fun e => p e.1) = if p q then find q l else none := by
  induction l with
  | nil => simp [find]
  | cons e rest ih =>
    obtain ⟨k', a'⟩ := e
    by_cases hp : p k' = true
    · simp only [List.filter_cons, hp, if_true, find, ih]
      by_cases hq : k' = q
      · subst hq; simp [hp]
      · simp [hq]
    · simp only [List.filter_cons, Bool.not_eq_true] at hp ⊢
      simp only [hp, Bool.false_eq_true, if_false, ih, find]
      by_cases hq : k' = q
      · subst hq; simp [hp]
      · simp [hq]

theorem find_eq_none_iff {k : κ} {l : List (κ × α)} :
    find k l = none ↔ k ∉ l.map Prod.fst := by
  induction l with
  | nil => simp [find]
  | cons p rest ih =>
    obtain ⟨k', a'⟩ := p
    by_cases h : k' = k
    · simp [find, h]
    · simp only [find, if_neg h, ih, List.map_cons, List.mem_cons, not_or]
      exact ⟨fun hm => ⟨Ne.symm h, hm⟩, And.right⟩

theorem find_eq_some_iff {k : κ} {a : α} {l : List (κ × α)} (h : (l.map Prod.fst).Nodup) :
    find k l = some a ↔ (k, a) ∈ l := by
  induction l with
  | nil => simp [find]
  | cons p rest ih =>
    obtain ⟨k', a'⟩ := p
    simp only [List.map_cons, List.nodup_cons] at h
    by_cases hk : k' = k
    · subst hk
      simp only [find, if_true, Option.some.injEq, List.mem_cons, Prod.mk.injEq, true_and]
      constructor
      · exact fun e => Or.inl e.symm
      · rintro (e | e)
        · exact e.symm
        · exact absurd (List.mem_map_of_mem (f := Prod.fst) e) h.1
    · simp only [find, if_neg hk, ih h.2, List.mem_cons, Prod.mk.injEq]
      exact ⟨Or.inr, fun e => e.elim (fun e => absurd e.1.symm hk) id⟩

/-! ## 2. The operations -/

/-- No pairs. -/
def empty : Dictionary κ α := ⟨[], List.nodup_nil⟩

instance : Inhabited (Dictionary κ α) := ⟨empty⟩

/-- The value stored under `k`. -/
def get? (d : Dictionary κ α) (k : κ) : Option α := find k d.pairs

/-- Stores `a` under `k`, in place of what was there. -/
def insert (d : Dictionary κ α) (k : κ) (a : α) : Dictionary κ α :=
  ⟨put k a d.pairs, nodup_put d.nodup⟩

/-- Keeps the pairs whose keys pass `p`. -/
def filterKeys (d : Dictionary κ α) (p : κ → Bool) : Dictionary κ α :=
  ⟨d.pairs.filter fun e => p e.1, d.nodup.sublist (List.filter_sublist.map Prod.fst)⟩

/-- Removes the pair of `k`, if there is one. -/
def erase (d : Dictionary κ α) (k : κ) : Dictionary κ α := d.filterKeys fun q => decide (q ≠ k)

/-- The keys in order of first insertion. -/
def keys (d : Dictionary κ α) : List κ := d.pairs.map Prod.fst

/-- The number of pairs. -/
def size (d : Dictionary κ α) : Nat := d.pairs.length

/-- Whether `k` has a value. -/
def contains (d : Dictionary κ α) (k : κ) : Bool := (d.get? k).isSome

/-! ## 3. What they do to a look-up -/

@[simp] theorem get?_empty (k : κ) : (empty : Dictionary κ α).get? k = none := rfl

theorem get?_insert (d : Dictionary κ α) (k q : κ) (a : α) :
    (d.insert k a).get? q = if q = k then some a else d.get? q := find_put k q a d.pairs

@[simp] theorem get?_insert_self (d : Dictionary κ α) (k : κ) (a : α) :
    (d.insert k a).get? k = some a := by simp [get?_insert]

/-- What is stored last under a key is what is there. -/
theorem insert_insert (d : Dictionary κ α) (k : κ) (a a' : α) :
    (d.insert k a').insert k a = d.insert k a := by
  have hput : put k a (put k a' d.pairs) = put k a d.pairs := put_put k a a' d.pairs
  unfold insert
  congr

/-- Storing what is stored already changes nothing. -/
theorem insert_of_get? {d : Dictionary κ α} {k : κ} {a : α} (h : d.get? k = some a) :
    d.insert k a = d := by
  obtain ⟨pairs, nodup⟩ := d
  have hput : put k a pairs = pairs := put_of_find h
  unfold insert
  congr

theorem get?_filterKeys (d : Dictionary κ α) (p : κ → Bool) (q : κ) :
    (d.filterKeys p).get? q = if p q then d.get? q else none := find_filter p q d.pairs

theorem get?_erase (d : Dictionary κ α) (k q : κ) :
    (d.erase k).get? q = if q = k then none else d.get? q := by
  simp only [erase, get?_filterKeys]
  by_cases h : q = k <;> simp [h]

@[simp] theorem get?_erase_self (d : Dictionary κ α) (k : κ) : (d.erase k).get? k = none := by
  simp [get?_erase]

theorem mem_keys_iff {d : Dictionary κ α} {k : κ} : k ∈ d.keys ↔ (d.get? k).isSome := by
  have h : d.get? k = none ↔ k ∉ d.keys := find_eq_none_iff
  cases hf : d.get? k with
  | none => simp [h.1 hf]
  | some a => simpa [hf] using h

theorem get?_eq_some_iff {d : Dictionary κ α} {k : κ} {a : α} :
    d.get? k = some a ↔ (k, a) ∈ d.pairs := find_eq_some_iff d.nodup

end Dictionary

end Telefile
