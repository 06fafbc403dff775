import Telefile.Proofs.Files.Writing

/-!
# Changes that do not meet

What a call on a descriptor changes is one entry of a table, one session, and at most one file.
Changes of that kind do not ask in which order they are made, as long as they meet in none of these.

* `Dictionary.alter` — the value under one key changed or taken out; an insertion over a value, and
  an erasure, are alterations, and **alterations of two keys commute** (`alter_comm`);
* `Patch`, `Host.patched` — bytes laid over a file; **patches of two files commute**
  (`patched_comm`);
* `Host.undated` — a host without the times of its files, and `undated_patched`: a patch leaves
  nothing of the clock behind but those.
-/

namespace Telefile

/-! ## 1. One key of a dictionary -/

namespace Dictionary

variable {κ α : Type} [DecidableEq κ] {k q : κ} {a a' : α} {f g : α → Option α}

/-- A pair with its value changed by `f`, or taken out, if its key is `k`. -/
def alterPair (k : κ) (f : α → Option α) (e : κ × α) : Option (κ × α) :=
  if e.1 = k then (f e.2).map fun a => (e.1, a) else some e

theorem alterPair_of_ne {e : κ × α} (h : e.1 ≠ k) : alterPair k f e = some e := if_neg h

theorem key_of_alterPair {e e' : κ × α} (h : alterPair k f e = some e') : e'.1 = e.1 := by
  unfold alterPair at h
  split at h
  · obtain ⟨a, -, rfl⟩ := Option.map_eq_some_iff.mp h
    rfl
  · cases h
    rfl

theorem keys_alterPair_sublist (k : κ) (f : α → Option α) (l : List (κ × α)) :
    ((l.filterMap (alterPair k f)).map Prod.fst).Sublist (l.map Prod.fst) := by
  induction l with
  | nil => exact .slnil
  | cons e rest ih =>
    cases he : alterPair k f e with
    | none =>
      rw [List.filterMap_cons_none he]
      exact .cons _ ih
    | some e' =>
      rw [List.filterMap_cons_some he, List.map_cons, List.map_cons, key_of_alterPair he]
      exact .cons_cons _ ih

theorem filterMap_alterPair_of_notMem {l : List (κ × α)} (h : k ∉ l.map Prod.fst) :
    l.filterMap (alterPair k f) = l := by
  induction l with
  | nil => rfl
  | cons e rest ih =>
    rw [List.map_cons, List.mem_cons, not_or] at h
    rw [List.filterMap_cons_some (alterPair_of_ne (Ne.symm h.1)), ih h.2]

/-- What is written in place is an alteration. -/
theorem put_eq_filterMap {l : List (κ × α)} (hnodup : (l.map Prod.fst).Nodup)
    (hk : find k l = some a) (hf : f a = some a') :
    put k a' l = l.filterMap (alterPair k f) := by
  induction l with
  | nil => cases hk
  | cons e rest ih =>
    obtain ⟨k', x⟩ := e
    rw [List.map_cons, List.nodup_cons] at hnodup
    by_cases hkey : k' = k
    · subst hkey
      have hx : x = a := by simpa only [find, if_pos, Option.some.injEq] using hk
      have halter : alterPair k' f (k', x) = some (k', a') := by
        rw [alterPair, if_pos rfl, hx, hf]
        rfl
      rw [List.filterMap_cons_some halter, filterMap_alterPair_of_notMem hnodup.1, put, if_pos rfl]
    · rw [find, if_neg hkey] at hk
      rw [List.filterMap_cons_some (alterPair_of_ne hkey), put, if_neg hkey, ih hnodup.2 hk]

theorem filter_eq_filterMap (l : List (κ × α)) :
    l.filter (fun e => decide (e.1 ≠ k)) = l.filterMap (alterPair k fun _ => none) := by
  induction l with
  | nil => rfl
  | cons e rest ih =>
    by_cases hkey : e.1 = k
    · have halter : alterPair k (fun _ => none) e = none := by
        rw [alterPair, if_pos hkey]
        rfl
      rw [List.filterMap_cons_none halter, List.filter_cons_of_neg (by simpa using hkey), ih]
    · rw [List.filterMap_cons_some (alterPair_of_ne hkey),
        List.filter_cons_of_pos (by simpa using hkey), ih]

/-- A change under another key comes to nothing. -/
theorem alterPair_bind_of_ne {e : κ × α} (h : e.1 ≠ q) :
    (alterPair k f e).bind (alterPair q g) = alterPair k f e := by
  cases he : alterPair k f e with
  | none => rfl
  | some e' =>
    rw [← key_of_alterPair he] at h
    exact alterPair_of_ne h

theorem alterPair_bind_self (e : κ × α) :
    (alterPair k f e).bind (alterPair k g) = alterPair k (fun a => (f a).bind g) e := by
  unfold alterPair
  by_cases hk : e.1 = k
  · rw [if_pos hk, if_pos hk]
    dsimp only
    cases f e.2 with
    | none => rfl
    | some a => exact if_pos hk
  · rw [if_neg hk, if_neg hk]
    exact if_neg hk

theorem alterPair_comm (h : k ≠ q ∨ ∀ a, (f a).bind g = (g a).bind f) (e : κ × α) :
    (alterPair k f e).bind (alterPair q g) = (alterPair q g e).bind (alterPair k f) := by
  by_cases hq : e.1 = q
  · by_cases hk : e.1 = k
    · have hkey : k = q := hk.symm.trans hq
      have hfg : ∀ a, (f a).bind g = (g a).bind f := h.resolve_left fun hne => hne hkey
      rw [← hkey, alterPair_bind_self, alterPair_bind_self, funext hfg]
    · rw [alterPair_bind_of_ne hk, alterPair_of_ne hk]
      rfl
  · rw [alterPair_bind_of_ne hq, alterPair_of_ne hq]
    rfl

/-- The dictionary with the value under `k` changed by `f`, or taken out. -/
def alter (d : Dictionary κ α) (k : κ) (f : α → Option α) : Dictionary κ α :=
  ⟨d.pairs.filterMap (alterPair k f), d.nodup.sublist (keys_alterPair_sublist k f d.pairs)⟩

omit [DecidableEq κ] in
theorem ext_pairs {d d' : Dictionary κ α} (h : d.pairs = d'.pairs) : d = d' := by
  obtain ⟨pairs, nodup⟩ := d
  obtain ⟨pairs', nodup'⟩ := d'
  cases h
  rfl

variable (d : Dictionary κ α)

theorem insert_eq_alter {d : Dictionary κ α} (hk : d.get? k = some a) (hf : f a = some a') :
    d.insert k a' = d.alter k f :=
  ext_pairs (put_eq_filterMap d.nodup hk hf)

theorem erase_eq_alter (k : κ) : d.erase k = d.alter k fun _ => none :=
  ext_pairs (filter_eq_filterMap d.pairs)

/-- Without a value there is nothing to alter. -/
theorem alter_of_get?_eq_none {d : Dictionary κ α} (hk : d.get? k = none) (f : α → Option α) :
    d.alter k f = d :=
  ext_pairs (filterMap_alterPair_of_notMem (find_eq_none_iff.mp hk))

/-- A value altered to itself. -/
theorem alter_get? (k : κ) : (d.alter k fun _ => d.get? k) = d := by
  cases hk : d.get? k with
  | none => exact alter_of_get?_eq_none hk _
  | some a =>
    rw [← insert_eq_alter hk (f := fun _ => some a) rfl]
    exact insert_of_get? hk

theorem get?_alter_of_ne (f : α → Option α) (h : q ≠ k) : (d.alter k f).get? q = d.get? q := by
  refine Option.ext fun a => ?_
  rw [get?_eq_some_iff, get?_eq_some_iff]
  show (q, a) ∈ d.pairs.filterMap (alterPair k f) ↔ _
  rw [List.mem_filterMap]
  constructor
  · rintro ⟨e, he, halter⟩
    have hkey : e.1 ≠ k := key_of_alterPair halter ▸ h
    rw [alterPair_of_ne hkey] at halter
    cases halter
    exact he
  · exact fun he => ⟨(q, a), he, alterPair_of_ne h⟩

/-- **Alterations of two keys commute**, and those of one key if the changes of the value do. -/
theorem alter_comm (h : k ≠ q ∨ ∀ a, (f a).bind g = (g a).bind f) :
    (d.alter k f).alter q g = (d.alter q g).alter k f := by
  refine ext_pairs ?_
  show (d.pairs.filterMap _).filterMap _ = (d.pairs.filterMap _).filterMap _
  rw [List.filterMap_filterMap, List.filterMap_filterMap]
  rw [funext (alterPair_comm h)]

end Dictionary

/-! ## 2. One file of a host -/

/-- Bytes laid over a file from a position on. -/
structure Patch where
  file : FileId
  pos : Nat
  bytes : List UInt8

namespace Host

/-- The host with a patch laid over its file, if there is a patch. -/
def patched (h : Host) : Option Patch → Host
  | none => h
  | some p => h.overwrite p.file p.pos p.bytes

/-- The file `f` with bytes laid over it at the time `t`. -/
def laidOver (pos : Nat) (b : List UInt8) (t : Timestamp) (f : File) : File :=
  { f with content := f.content.write pos b, modified := t }

theorem overwrite_eq_modify (h : Host) (id : FileId) (pos : Nat) (b : List UInt8) :
    h.overwrite id pos b = { h with files := h.files.modify id (laidOver pos b h.now) } := by
  unfold overwrite
  cases hf : h.file? id with
  | none =>
    have hlen : h.files.length ≤ id := List.getElem?_eq_none_iff.mp hf
    rw [List.modify_eq_self hlen]
  | some f =>
    have hset : h.files.set id (laidOver pos b h.now f) =
        h.files.modify id (laidOver pos b h.now) := by
      obtain ⟨hlt, rfl⟩ := List.getElem?_eq_some_iff.mp hf
      rw [List.set_eq_take_append_cons_drop, if_pos hlt, List.modify_eq_take_cons_drop hlt]
    exact congrArg (fun files => { h with files }) hset

theorem contentOf_overwrite_of_ne {h : Host} {id q : FileId} (hne : q ≠ id) (pos : Nat)
    (b : List UInt8) : (h.overwrite id pos b).contentOf q = h.contentOf q := by
  rw [overwrite_eq_modify]
  show (((h.files.modify id _)[q]?).map _).getD _ = ((h.files[q]?).map _).getD _
  rw [List.getElem?_modify_ne _ _ (Ne.symm hne)]

/-- A patch changes nothing but files. -/
theorem patched_files (h : Host) (p : Option Patch) : ∃ files, h.patched p = { h with files } := by
  cases p with
  | none => exact ⟨h.files, rfl⟩
  | some p => exact h.overwrite_files p.file p.pos p.bytes

/-- **Patches of two files commute.** -/
theorem patched_comm (h : Host) {p p' : Option Patch}
    (hne : ∀ x x', p = some x → p' = some x' → x.file ≠ x'.file) :
    (h.patched p).patched p' = (h.patched p').patched p := by
  cases p with
  | none => rfl
  | some x =>
    cases p' with
    | none => rfl
    | some x' =>
      have hfile : x.file ≠ x'.file := hne x x' rfl rfl
      simp only [patched, overwrite_eq_modify]
      rw [List.modify_modify_ne _ _ _ hfile]

/-! ## 3. Hosts without times -/

/-- The host at another time. -/
def atTime (h : Host) (t : Timestamp) : Host := { h with now := t }

/-- The host without its clock and the times of its files. -/
def undated (h : Host) : Host :=
  { h with files := h.files.map fun f => { f with modified := ⟨0, 0⟩ }, now := ⟨0, 0⟩ }

/-- **A patch leaves nothing of the clock behind** but the time of its file. -/
theorem undated_patched (h : Host) (t : Timestamp) (p : Option Patch) :
    ((h.atTime t).patched p).undated = h.undated.patched p := by
  cases p with
  | none => rfl
  | some p =>
    simp only [patched, overwrite_eq_modify]
    unfold undated atTime
    congr 1
    refine List.ext_getElem? fun n => ?_
    simp only [List.getElem?_map, List.getElem?_modify]
    cases h.files[n]? with
    | none => rfl
    | some f =>
      by_cases hn : p.file = n
      · simp only [hn, if_true]
        rfl
      · simp [hn]

end Host

end Telefile
