import Telefile.Path

/-!
# The path of a location

The path of a location with proper names is read back as it was put together: its names, its
components, its parent, and what is joined to it. Any other path may go on by proper names too.

* `Name.Proper` — what an entry can be called; `Location.Proper` — a location of such names;
* `split_glue` — parts between slashes come apart as they went in;
* `names_ofLocation`, `components_ofLocation`, `parent?_ofLocation`, `join_ofLocation` — the path
  of a location;
* `names_join`, `endsInSlash_join`, `isAbsolute_join`, `text_join` — a path that goes on by names;
* **`proper_of_fold?`** — the names that a path folds to are proper.
-/

namespace Telefile

/-- What an entry can be called. -/
structure Name.Proper (n : Name) : Prop where
  nonempty : n ≠ []
  no_slash : Path.slash ∉ n
  not_dot : n ≠ Path.dot
  not_dotdot : n ≠ Path.dotdot

/-- All names of a location are proper. -/
def Location.Proper (l : Location) : Prop := ∀ n ∈ l, Name.Proper n

instance (n : Name) : Decidable n.Proper :=
  decidable_of_iff (n ≠ [] ∧ Path.slash ∉ n ∧ n ≠ Path.dot ∧ n ≠ Path.dotdot)
    ⟨fun h => ⟨h.1, h.2.1, h.2.2.1, h.2.2.2⟩,
      fun h => ⟨h.nonempty, h.no_slash, h.not_dot, h.not_dotdot⟩⟩

instance (l : Location) : Decidable (Location.Proper l) :=
  inferInstanceAs (Decidable (∀ n ∈ l, Name.Proper n))

theorem Location.Proper.append {l m : Location} (hl : Proper l) (hm : Proper m) :
    Proper (l ++ m) := by
  intro n hn
  rcases List.mem_append.mp hn with h | h
  · exact hl n h
  · exact hm n h

theorem Location.proper_singleton {n : Name} (hn : n.Proper) : Proper [n] := by
  intro m hm
  rw [List.mem_singleton.mp hm]
  exact hn

theorem Location.Proper.snoc {l : Location} {n : Name} (hl : Proper l) (hn : n.Proper) :
    Proper (l ++ [n]) :=
  hl.append (proper_singleton hn)

theorem Location.Proper.dropLast {l : Location} (hl : Proper l) : Proper l.dropLast :=
  fun n hn => hl n (List.dropLast_subset l hn)

theorem Location.Proper.left {l m : Location} (h : Proper (l ++ m)) : Proper l :=
  fun n hn => h n (List.mem_append_left m hn)

namespace Path

/-! ## 1. Parts -/

theorem split_of_not_mem {a : List UInt8} (h : slash ∉ a) : split a = [a] := by
  induction a with
  | nil => rfl
  | cons b a ih =>
    obtain ⟨hb, ha⟩ := not_or.mp (mt List.mem_cons.mpr h)
    unfold split
    rw [if_neg (Ne.symm hb), ih ha]

theorem split_ne_nil (t : List UInt8) : split t ≠ [] := by
  cases t with
  | nil => exact List.cons_ne_nil _ _
  | cons b rest =>
    unfold split
    split
    · exact List.cons_ne_nil _ _
    · split <;> exact List.cons_ne_nil _ _

/-- What stands on both sides of a slash comes apart there. -/
theorem split_append_slash (a b : List UInt8) : split (a ++ slash :: b) = split a ++ split b := by
  induction a with
  | nil =>
    show split (slash :: b) = [] :: split b
    rw [split, if_pos rfl]
  | cons c a ih =>
    rw [List.cons_append, split, split, ih]
    by_cases hc : c = slash
    · rw [if_pos hc, if_pos hc, List.cons_append]
    · rw [if_neg hc, if_neg hc]
      cases hs : split a with
      | nil => exact absurd hs (split_ne_nil a)
      | cons part parts => rfl

theorem split_append {a : List UInt8} (h : slash ∉ a) (b : List UInt8) :
    split (a ++ slash :: b) = a :: split b := by
  rw [split_append_slash, split_of_not_mem h, List.singleton_append]

theorem slash_not_mem_of_split {t : List UInt8} : ∀ part ∈ split t, slash ∉ part := by
  induction t with
  | nil =>
    intro part hpart
    rw [List.mem_singleton.mp hpart]
    exact List.not_mem_nil
  | cons b rest ih =>
    intro part hpart
    unfold split at hpart
    split at hpart
    · rcases List.mem_cons.mp hpart with rfl | h
      · exact List.not_mem_nil
      · exact ih part h
    · next hb =>
      cases hs : split rest with
      | nil =>
        rw [hs] at hpart
        rw [List.mem_singleton.mp hpart]
        exact fun h => hb (List.mem_singleton.mp h).symm
      | cons first parts =>
        rw [hs] at hpart ih
        rcases List.mem_cons.mp hpart with rfl | h
        · intro hmem
          rcases List.mem_cons.mp hmem with h | h
          · exact hb h.symm
          · exact ih first List.mem_cons_self h
        · exact ih part (List.mem_cons_of_mem first h)

theorem length_split_le (t : List UInt8) : (split t).length ≤ t.length + 1 := by
  induction t with
  | nil => exact Nat.le_refl 1
  | cons b rest ih =>
    unfold split
    split
    · exact Nat.succ_le_succ ih
    · cases hs : split rest with
      | nil => exact absurd hs (split_ne_nil rest)
      | cons part parts =>
        rw [hs] at ih
        exact Nat.le_succ_of_le ih

theorem glue_cons {n : Name} {l : List Name} (h : l ≠ []) : glue (n :: l) = n ++ slash :: glue l := by
  cases l with
  | nil => exact absurd rfl h
  | cons m l =>
    unfold glue
    rw [List.intercalate_cons_cons, List.append_assoc, List.singleton_append]

theorem glue_singleton (n : Name) : glue [n] = n := List.intercalate_singleton

theorem glue_append {l m : List Name} (hl : l ≠ []) (hm : m ≠ []) :
    glue (l ++ m) = glue l ++ slash :: glue m := by
  induction l with
  | nil => exact absurd rfl hl
  | cons n l ih =>
    cases l with
    | nil =>
      rw [glue_singleton]
      exact glue_cons hm
    | cons n' l =>
      have hrest : glue (n' :: l ++ m) = glue (n' :: l) ++ slash :: glue m := ih (by simp)
      have hleft : glue (n :: n' :: l) = n ++ slash :: glue (n' :: l) := glue_cons (by simp)
      have hwhole : glue (n :: (n' :: l ++ m)) = n ++ slash :: glue (n' :: l ++ m) :=
        glue_cons (by simp)
      rw [List.cons_append, hwhole, hrest, hleft, List.append_assoc, List.cons_append]

/-- **Parts come apart as they went in.** -/
theorem split_glue {parts : List Name} (hne : parts ≠ []) (h : ∀ n ∈ parts, slash ∉ n) :
    split (glue parts) = parts := by
  induction parts with
  | nil => exact absurd rfl hne
  | cons n parts ih =>
    have hn : slash ∉ n := h n List.mem_cons_self
    cases parts with
    | nil =>
      rw [glue_singleton]
      exact split_of_not_mem hn
    | cons m parts =>
      rw [glue_cons (by simp), split_append hn, ih (by simp) fun q hq => h q (List.mem_cons_of_mem n hq)]

/-- The names that are looked up are not empty and hold no slash. -/
theorem written_names {p : Path} : ∀ n ∈ p.names, n ≠ [] ∧ slash ∉ n := by
  intro n hn
  obtain ⟨hmem, hne⟩ := List.mem_filter.mp hn
  refine ⟨?_, slash_not_mem_of_split n hmem⟩
  rintro rfl
  cases hne

/-! ## 2. The path of a location -/

section OfLocation

variable {l : Location}

theorem isAbsolute_ofLocation (l : Location) : (ofLocation l).isAbsolute = true := rfl

theorem split_ofLocation (hl : Location.Proper l) (hne : l ≠ []) :
    split (ofLocation l).text = [] :: l := by
  show split (slash :: glue l) = _
  rw [split, if_pos rfl, split_glue hne fun n hn => (hl n hn).no_slash]

theorem length_le_ofLocation (hl : Location.Proper l) :
    l.length ≤ (ofLocation l).text.length := by
  by_cases hne : l = []
  · subst hne
    exact Nat.zero_le _
  · have hle := length_split_le (ofLocation l).text
    rw [split_ofLocation hl hne] at hle
    exact Nat.le_of_succ_le_succ hle

theorem names_ofLocation (hl : Location.Proper l) : (ofLocation l).names = l := by
  unfold names
  by_cases hne : l = []
  · subst hne
    rfl
  · rw [split_ofLocation hl hne]
    show l.filter _ = l
    rw [List.filter_eq_self]
    intro n hn
    simpa using (hl n hn).nonempty

theorem component?_proper {n : Name} (h : n.Proper) : component? n = some (.name n) := by
  unfold component?
  rw [if_neg (not_or.mpr ⟨h.nonempty, h.not_dot⟩), if_neg h.not_dotdot]

theorem filterMap_component? (hl : Location.Proper l) :
    l.filterMap component? = l.map .name := by
  induction l with
  | nil => rfl
  | cons n l ih =>
    rw [List.filterMap_cons, component?_proper (hl n List.mem_cons_self), List.map_cons,
      ih fun q hq => hl q (List.mem_cons_of_mem n hq)]

theorem components_ofLocation (hl : Location.Proper l) :
    (ofLocation l).components = .root :: l.map .name := by
  unfold components
  by_cases hne : l = []
  · subst hne
    rfl
  · rw [split_ofLocation hl hne]
    simp only [if_true, if_neg hne, Option.toList_some, List.singleton_append,
      filterMap_component? hl]

theorem trimEnd_snoc {parts : List Name} {n : Name} (h : n.Proper) :
    trimEnd (parts ++ [n]) = parts ++ [n] := by
  unfold trimEnd
  have hkeep : (n :: parts.reverse).dropWhile (fun n => n == [] || n == dot) =
      n :: parts.reverse := List.dropWhile_cons_of_neg (by simp [h.nonempty, h.not_dot])
  rw [List.reverse_append, List.reverse_singleton, List.singleton_append, hkeep,
    List.reverse_cons, List.reverse_reverse]

theorem trimEnd_proper (hl : Location.Proper l) : trimEnd l = l := by
  rcases List.eq_nil_or_concat l with rfl | ⟨m, n, rfl⟩
  · rfl
  · rw [List.concat_eq_append] at hl ⊢
    exact trimEnd_snoc (hl n (by simp))

theorem parent?_ofLocation {n : Name} (h : Location.Proper (l ++ [n])) :
    (ofLocation (l ++ [n])).parent? = some (ofLocation l) := by
  unfold parent?
  rw [split_ofLocation h (by simp)]
  dsimp only
  rw [trimEnd_proper h, if_neg (by simp), List.dropLast_concat, trimEnd_proper h.left]
  by_cases hl : l = []
  · subst hl
    rfl
  · rw [if_neg fun hand => hl hand.2]
    show some (⟨glue ([] :: l)⟩ : Path) = _
    rw [glue_cons hl]
    rfl

/-- Above a path comes its parent. -/
theorem upwards_of_parent? {p q : Path} (hp : p.parent? = some q) (more : Nat) :
    ∃ above, upwards (more + 2) p = p :: q :: above := by
  unfold upwards
  rw [hp]
  exact ⟨_, rfl⟩

/-- A path that has a name behind a slash does not end in one. -/
theorem endsInSlash_of_text {p : Path} {front : List UInt8} {n : Name}
    (htext : p.text = front ++ slash :: n) (hn : n.Proper) : p.endsInSlash = false := by
  have hlast : p.text.getLast? = n.getLast? := by
    rw [htext, List.getLast?_append, List.getLast?_cons]
    cases hg : n.getLast? with
    | none => exact absurd (List.getLast?_eq_none_iff.mp hg) hn.nonempty
    | some b => rfl
  unfold endsInSlash
  rw [hlast, beq_eq_false_iff_ne]
  exact fun hsome => hn.no_slash (List.mem_of_getLast? hsome)

theorem endsInSlash_ofLocation {n : Name} (h : n.Proper) :
    (ofLocation (l ++ [n])).endsInSlash = false := by
  by_cases hl : l = []
  · have htext : (ofLocation (l ++ [n])).text = [] ++ slash :: n := by
      show slash :: glue (l ++ [n]) = _
      rw [hl, List.nil_append, glue_singleton, List.nil_append]
    exact endsInSlash_of_text htext h
  · have htext : (ofLocation (l ++ [n])).text = (slash :: glue l) ++ slash :: n := by
      show slash :: glue (l ++ [n]) = _
      rw [glue_append hl (by simp), glue_singleton, List.cons_append]
    exact endsInSlash_of_text htext h

theorem join_ofLocation (hl : Location.Proper l) {names : List Name} (hne : names ≠ []) :
    (ofLocation l).join names = ofLocation (l ++ names) := by
  unfold join
  rcases List.eq_nil_or_concat l with rfl | ⟨m, n, rfl⟩
  · rfl
  · rw [List.concat_eq_append] at hl ⊢
    have hslash := endsInSlash_ofLocation (l := m) (hl n (by simp))
    have htext : (ofLocation (m ++ [n])).text ≠ [] := List.cons_ne_nil _ _
    rw [if_neg (not_or.mpr ⟨htext, by simp [hslash]⟩)]
    show (⟨slash :: glue (m ++ [n]) ++ [slash] ++ glue names⟩ : Path) =
      ⟨slash :: glue (m ++ [n] ++ names)⟩
    rw [glue_append (by simp) hne, List.append_assoc, List.singleton_append, List.cons_append]

/-- The path of a location begins as the path of the directory above it. -/
theorem text_ofLocation_snoc (l : Location) (n : Name) :
    ∃ more, (ofLocation (l ++ [n])).text = (ofLocation l).text ++ more := by
  by_cases hl : l = []
  · subst hl
    exact ⟨glue [n], rfl⟩
  · refine ⟨slash :: n, ?_⟩
    show slash :: glue (l ++ [n]) = slash :: glue l ++ slash :: n
    rw [glue_append hl (by simp), glue_singleton, List.cons_append]

/-- A location lies beneath another if its path does. -/
theorem startsWith_ofLocation {top : Location} (hl : Location.Proper l)
    (htop : Location.Proper top) (h : (ofLocation l).startsWith (ofLocation top) = true) :
    top <+: l := by
  unfold startsWith at h
  rw [components_ofLocation hl, components_ofLocation htop, List.isPrefixOf_iff_prefix] at h
  obtain ⟨-, hup⟩ := List.cons_prefix_cons.mp h
  have hinj : Function.Injective Component.name := fun _ _ he => Component.name.inj he
  exact (List.prefix_map_iff_of_injective hinj).mp hup

end OfLocation

/-! ## 3. A path that goes on by names -/

section Join

variable {p : Path} {n : Name} {names : List Name}

/-- Behind a slash stand the names, and before it what leads as far as the path. -/
theorem exists_text_join (hp : p.text ≠ []) (names : List Name) :
    ∃ front, (p.join names).text = front ++ slash :: glue names ∧
      (⟨front⟩ : Path).names = p.names := by
  unfold join
  cases hslash : p.endsInSlash with
  | false =>
    refine ⟨p.text, ?_, rfl⟩
    rw [if_neg (not_or.mpr ⟨hp, by simp⟩)]
    simp
  | true =>
    have hlast : p.text.getLast? = some slash := by simpa [endsInSlash] using hslash
    obtain ⟨front, hfront⟩ := List.getLast?_eq_some_iff.mp hlast
    refine ⟨front, ?_, ?_⟩
    · rw [if_pos (.inr rfl), hfront]
      simp
    · unfold Path.names
      rw [hfront, split_append_slash, List.filter_append]
      exact (List.append_nil _).symm

theorem names_join (hp : p.text ≠ []) (hnames : Location.Proper names) (hne : names ≠ []) :
    (p.join names).names = p.names ++ names := by
  obtain ⟨front, htext, hfront⟩ := exists_text_join hp names
  have hkept : names.filter (fun n => !n.isEmpty) = names := by
    rw [List.filter_eq_self]
    intro n hn
    simpa using (hnames n hn).nonempty
  rw [← hfront]
  unfold Path.names
  rw [htext, split_append_slash, List.filter_append,
    split_glue hne fun n hn => (hnames n hn).no_slash, hkept]

theorem endsInSlash_join (hp : p.text ≠ []) (hn : n.Proper) : (p.join [n]).endsInSlash = false := by
  obtain ⟨front, htext, -⟩ := exists_text_join hp [n]
  rw [glue_singleton] at htext
  exact endsInSlash_of_text htext hn

theorem isAbsolute_join (hp : p.text ≠ []) (names : List Name) :
    (p.join names).isAbsolute = p.isAbsolute := by
  obtain ⟨b, rest, hb⟩ := List.exists_cons_of_ne_nil hp
  unfold isAbsolute join
  rw [hb]
  rfl

/-- A path that goes on begins as it was. -/
theorem text_join (p : Path) (hnames : Location.Proper names) (hne : names ≠ []) :
    ∃ more, more ≠ [] ∧ (p.join names).text = p.text ++ more := by
  refine ⟨_, ?_, List.append_assoc ..⟩
  cases names with
  | nil => exact absurd rfl hne
  | cons n rest =>
    have hglue : glue (n :: rest) ≠ [] := by
      cases rest with
      | nil =>
        rw [glue_singleton]
        exact (hnames n List.mem_cons_self).nonempty
      | cons m rest =>
        rw [glue_cons (List.cons_ne_nil m rest)]
        simp
    exact List.append_ne_nil_of_right_ne_nil _ hglue

theorem length_lt_join (hn : n.Proper) : p.text.length < (p.join [n]).text.length := by
  obtain ⟨more, hmore, htext⟩ := p.text_join (Location.proper_singleton hn) (List.cons_ne_nil n [])
  have hpos := List.length_pos_iff.mpr hmore
  rw [htext, List.length_append]
  omega

end Join

/-! ## 4. The names that a path folds to -/

theorem proper_of_component? {part n : Name} (hpart : slash ∉ part)
    (h : component? part = some (.name n)) : n.Proper := by
  unfold component? at h
  split at h
  · cases h
  · next hne =>
    split at h
    · cases h
    · next hdotdot =>
      cases h
      obtain ⟨hnil, hdot⟩ := not_or.mp hne
      exact ⟨hnil, hpart, hdot, hdotdot⟩

theorem proper_of_mem_components {p : Path} {n : Name} (h : .name n ∈ p.components) :
    n.Proper := by
  have hslash : ∀ part ∈ split p.text, slash ∉ part := slash_not_mem_of_split
  unfold components at h
  cases hs : split p.text with
  | nil =>
    rw [hs] at h
    cases h
  | cons first rest =>
    rw [hs] at h hslash
    dsimp only at h
    rcases List.mem_append.mp h with hlead | hrest
    · rw [Option.mem_toList] at hlead
      split at hlead
      · split at hlead <;> cases hlead
      · split at hlead
        · cases hlead
        · exact proper_of_component? (hslash first List.mem_cons_self) hlead
    · obtain ⟨part, hpart, hc⟩ := List.mem_filterMap.mp hrest
      exact proper_of_component? (hslash part (List.mem_cons_of_mem first hpart)) hc

theorem proper_of_foldlM (cs : List Component) :
    ∀ {names result : List Name}, (∀ n, .name n ∈ cs → n.Proper) → Location.Proper names →
      cs.foldlM foldStep names = some result → Location.Proper result := by
  induction cs with
  | nil =>
    intro names result _ hnames h
    cases h
    exact hnames
  | cons c cs ih =>
    intro names result hcs hnames h
    rw [List.foldlM_cons] at h
    obtain ⟨next, hstep, hrest⟩ := Option.bind_eq_some_iff.mp h
    have hnext : Location.Proper next := by
      cases c with
      | root =>
        cases hstep
        exact hnames
      | here =>
        cases hstep
        exact hnames
      | parent =>
        have hparent : (if names = [] then none else some names.dropLast) = some next := hstep
        split at hparent
        · cases hparent
        · cases hparent
          exact hnames.dropLast
      | name n =>
        cases hstep
        exact hnames.snoc (hcs n List.mem_cons_self)
    exact ih (fun n hn => hcs n (List.mem_cons_of_mem c hn)) hnext hrest

/-- **What a path folds to has proper names.** -/
theorem proper_of_fold? {p : Path} {names : List Name} (h : p.fold? = some names) :
    Location.Proper names :=
  proper_of_foldlM p.components (fun _ hn => proper_of_mem_components hn)
    (fun _ hn => absurd hn List.not_mem_nil) h

end Path

end Telefile
