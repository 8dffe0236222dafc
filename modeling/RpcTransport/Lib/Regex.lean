import Mathlib.Data.List.Infix

/-!
# Regular expressions with groups

A backtracking matcher for sequences of literals, greedy repetitions of a character class, and
capturing groups.  `Re.allMatches` lists every way a pattern matches at the start of a text, in the
order a backtracking matcher tries them; the first of them is the match.

* `Re.mem_allMatches` — the list is exactly what the pattern describes (`Re.Fits`);
* `Re.groups_eq_some`, `Re.groups_eq_none` — the groups of a match, from the description alone;
* `Re.groups_eq_none_of_letter`, `Re.search_lit` — the two shortcuts for literals.
-/

namespace Regex

/-- Patterns.  `group` captures what its body takes. -/
inductive Re
  | lit (w : List Char)
  | star (p : Char → Bool)
  | plus (p : Char → Bool)
  | seq (a b : Re)
  | group (a : Re)

/-- One way to match: the text taken, the groups in the order they open, the text left. -/
structure Match where
  taken : List Char
  captures : List (List Char)
  rest : List Char

/-- Every prefix of class `p`, the longest first, with what it leaves. -/
def runs (p : Char → Bool) : List Char → List (List Char × List Char)
  | [] => [([], [])]
  | c :: s => (if p c then (runs p s).map fun x => (c :: x.1, x.2) else []) ++ [([], c :: s)]

namespace Re

/-- All matches at the start of `s`, in the order of preference. -/
def allMatches : Re → List Char → List Match
  | lit w, s => if w.isPrefixOf s then [⟨w, [], s.drop w.length⟩] else []
  | star p, s => (runs p s).map fun x => ⟨x.1, [], x.2⟩
  | plus p, s => ((runs p s).filter fun x => !x.1.isEmpty).map fun x => ⟨x.1, [], x.2⟩
  | seq a b, s => (a.allMatches s).flatMap fun m =>
      (b.allMatches m.rest).map fun n => ⟨m.taken ++ n.taken, m.captures ++ n.captures, n.rest⟩
  | group a, s => (a.allMatches s).map fun m => ⟨m.taken, m.taken :: m.captures, m.rest⟩

/-- The groups of the match at the start of `s`. -/
def groups (re : Re) (s : List Char) : Option (List (List Char)) :=
  (re.allMatches s).head?.map Match.captures

/-- The groups of the leftmost match anywhere in `s`. -/
def search (re : Re) (s : List Char) : Option (List (List Char)) :=
  s.tails.findSome? re.groups

/-- The texts a pattern describes, with the groups each is captured by. -/
def Fits : Re → List Char → List (List Char) → Prop
  | lit w, t, cs => t = w ∧ cs = []
  | star p, t, cs => (∀ c ∈ t, p c = true) ∧ cs = []
  | plus p, t, cs => (t ≠ [] ∧ ∀ c ∈ t, p c = true) ∧ cs = []
  | seq a b, t, cs =>
      ∃ t₁ cs₁ t₂ cs₂, a.Fits t₁ cs₁ ∧ b.Fits t₂ cs₂ ∧ t = t₁ ++ t₂ ∧ cs = cs₁ ++ cs₂
  | group a, t, cs => ∃ cs', a.Fits t cs' ∧ cs = t :: cs'

/-! ### The matcher finds what the pattern describes -/

theorem mem_map_cons {c : Char} {xs : List (List Char × List Char)} {t r : List Char} :
    (t, r) ∈ xs.map (fun x => (c :: x.1, x.2)) ↔ ∃ t', t = c :: t' ∧ (t', r) ∈ xs := by
  rw [List.mem_map]
  constructor
  · rintro ⟨⟨t', r'⟩, hmem, heq⟩
    obtain ⟨rfl, rfl⟩ := Prod.mk.inj heq
    exact ⟨t', rfl, hmem⟩
  · rintro ⟨t', rfl, hmem⟩
    exact ⟨(t', r), hmem, rfl⟩

theorem mem_runs (p : Char → Bool) (s t r : List Char) :
    (t, r) ∈ runs p s ↔ (∀ c ∈ t, p c = true) ∧ s = t ++ r := by
  induction s generalizing t with
  | nil =>
      rw [runs, List.mem_singleton, Prod.mk.injEq]
      constructor
      · rintro ⟨rfl, rfl⟩
        simp
      · rintro ⟨-, h⟩
        exact List.append_eq_nil_iff.mp h.symm
  | cons c s ih =>
      rw [runs, List.mem_append, List.mem_singleton, Prod.mk.injEq]
      constructor
      · rintro (h | ⟨rfl, rfl⟩)
        · split_ifs at h with hc
          · obtain ⟨t', rfl, hmem⟩ := mem_map_cons.mp h
            obtain ⟨ht, rfl⟩ := (ih t').mp hmem
            exact ⟨List.forall_mem_cons.mpr ⟨hc, ht⟩, rfl⟩
          · cases h
        · exact ⟨fun c hc => (nomatch hc), rfl⟩
      · rintro ⟨ht, h⟩
        cases t with
        | nil => exact Or.inr ⟨rfl, h.symm⟩
        | cons d t =>
            obtain ⟨rfl, rfl⟩ := List.cons.inj h
            obtain ⟨hc, ht'⟩ := List.forall_mem_cons.mp ht
            rw [if_pos hc]
            exact Or.inl (mem_map_cons.mpr ⟨t, rfl, (ih t).mpr ⟨ht', rfl⟩⟩)

/-- **The matcher is sound and complete.** -/
theorem mem_allMatches (re : Re) (s : List Char) (m : Match) :
    m ∈ re.allMatches s ↔ re.Fits m.taken m.captures ∧ s = m.taken ++ m.rest := by
  induction re generalizing s m with
  | lit w =>
      obtain ⟨t, cs, r⟩ := m
      simp only [allMatches, Fits]
      by_cases hw : w.isPrefixOf s
      · obtain ⟨u, rfl⟩ := List.isPrefixOf_iff_prefix.mp hw
        rw [if_pos hw, List.mem_singleton, List.drop_left, Match.mk.injEq]
        constructor
        · rintro ⟨rfl, rfl, rfl⟩
          exact ⟨⟨rfl, rfl⟩, rfl⟩
        · rintro ⟨⟨rfl, rfl⟩, h⟩
          exact ⟨rfl, rfl, (List.append_cancel_left h).symm⟩
      · rw [if_neg hw]
        constructor
        · intro h
          cases h
        · rintro ⟨⟨rfl, -⟩, rfl⟩
          exact absurd (List.isPrefixOf_iff_prefix.mpr (List.prefix_append _ _)) hw
  | star p =>
      obtain ⟨t, cs, r⟩ := m
      simp only [allMatches, Fits, List.mem_map, Match.mk.injEq, Prod.exists, mem_runs]
      constructor
      · rintro ⟨t', r', ⟨ht, rfl⟩, rfl, rfl, rfl⟩
        exact ⟨⟨ht, rfl⟩, rfl⟩
      · rintro ⟨⟨ht, rfl⟩, rfl⟩
        exact ⟨t, r, ⟨ht, rfl⟩, rfl, rfl, rfl⟩
  | plus p =>
      obtain ⟨t, cs, r⟩ := m
      simp only [allMatches, Fits, List.mem_map, List.mem_filter, Match.mk.injEq, Prod.exists,
        mem_runs, Bool.not_eq_true', List.isEmpty_eq_false_iff]
      constructor
      · rintro ⟨t', r', ⟨⟨ht, rfl⟩, hne⟩, rfl, rfl, rfl⟩
        exact ⟨⟨⟨hne, ht⟩, rfl⟩, rfl⟩
      · rintro ⟨⟨⟨hne, ht⟩, rfl⟩, rfl⟩
        exact ⟨t, r, ⟨⟨ht, rfl⟩, hne⟩, rfl, rfl, rfl⟩
  | seq a b iha ihb =>
      obtain ⟨t, cs, r⟩ := m
      simp only [allMatches, Fits, List.mem_flatMap, List.mem_map, Match.mk.injEq]
      constructor
      · rintro ⟨m, hm, n, hn, rfl, rfl, rfl⟩
        obtain ⟨hma, rfl⟩ := (iha s m).mp hm
        obtain ⟨hnb, hrest⟩ := (ihb m.rest n).mp hn
        exact ⟨⟨_, _, _, _, hma, hnb, rfl, rfl⟩, by rw [List.append_assoc, ← hrest]⟩
      · rintro ⟨⟨t₁, cs₁, t₂, cs₂, ha, hb, rfl, rfl⟩, rfl⟩
        refine ⟨⟨t₁, cs₁, t₂ ++ r⟩, (iha _ _).mpr ⟨ha, List.append_assoc _ _ _⟩, ⟨t₂, cs₂, r⟩, ?_⟩
        exact ⟨(ihb _ _).mpr ⟨hb, rfl⟩, rfl, rfl, rfl⟩
  | group a ih =>
      obtain ⟨t, cs, r⟩ := m
      simp only [allMatches, Fits, List.mem_map, Match.mk.injEq]
      constructor
      · rintro ⟨m, hm, rfl, rfl, rfl⟩
        obtain ⟨hfit, hs⟩ := (ih s m).mp hm
        exact ⟨⟨_, hfit, rfl⟩, hs⟩
      · rintro ⟨⟨cs', hfit, rfl⟩, rfl⟩
        exact ⟨⟨t, cs', r⟩, (ih _ _).mpr ⟨hfit, rfl⟩, rfl, rfl, rfl⟩

/-- A pattern matches at the start of a text exactly when some prefix fits it. -/
theorem groups_eq_none_iff {re : Re} {s : List Char} :
    re.groups s = none ↔ ∀ t cs r, re.Fits t cs → s ≠ t ++ r := by
  rw [groups, Option.map_eq_none_iff, List.head?_eq_none_iff, List.eq_nil_iff_forall_not_mem]
  constructor
  · intro h t cs r hfit hs
    exact h ⟨t, cs, r⟩ ((mem_allMatches re s _).mpr ⟨hfit, hs⟩)
  · intro h m hm
    obtain ⟨hfit, hs⟩ := (mem_allMatches re s m).mp hm
    exact h _ _ _ hfit hs

/-- Where every match captures the same groups, these are the groups of the match. -/
theorem groups_eq_some {re : Re} {s t r : List Char} {cs : List (List Char)} (hfit : re.Fits t cs)
    (hs : s = t ++ r) (huniq : ∀ t' cs' r', re.Fits t' cs' → s = t' ++ r' → cs' = cs) :
    re.groups s = some cs := by
  have hmem : (⟨t, cs, r⟩ : Match) ∈ re.allMatches s := (mem_allMatches re s _).mpr ⟨hfit, hs⟩
  rw [groups]
  cases hm : re.allMatches s with
  | nil => rw [hm] at hmem; cases hmem
  | cons m ms =>
      obtain ⟨hfit', hs'⟩ := (mem_allMatches re s m).mp (hm ▸ List.mem_cons_self)
      rw [List.head?_cons, Option.map_some, huniq _ _ _ hfit' hs']

/-! ### Patterns in sequence -/

theorem fits_seq_lit {w t : List Char} {b : Re} {cs : List (List Char)} :
    (seq (lit w) b).Fits t cs ↔ ∃ t₂, b.Fits t₂ cs ∧ t = w ++ t₂ := by
  constructor
  · rintro ⟨t₁, cs₁, t₂, cs₂, ⟨rfl, rfl⟩, hb, rfl, rfl⟩
    exact ⟨t₂, hb, rfl⟩
  · rintro ⟨t₂, hb, rfl⟩
    exact ⟨w, [], t₂, cs, ⟨rfl, rfl⟩, hb, rfl, rfl⟩

theorem fits_seq_star {p : Char → Bool} {t : List Char} {b : Re} {cs : List (List Char)} :
    (seq (star p) b).Fits t cs ↔
      ∃ t₁ t₂, (∀ c ∈ t₁, p c = true) ∧ b.Fits t₂ cs ∧ t = t₁ ++ t₂ := by
  constructor
  · rintro ⟨t₁, cs₁, t₂, cs₂, ⟨ht, rfl⟩, hb, rfl, rfl⟩
    exact ⟨t₁, t₂, ht, hb, rfl⟩
  · rintro ⟨t₁, t₂, ht, hb, rfl⟩
    exact ⟨t₁, [], t₂, cs, ⟨ht, rfl⟩, hb, rfl, rfl⟩

/-- A group without inner groups. -/
theorem fits_seq_group {a b : Re} {t : List Char} {cs : List (List Char)}
    (ha : ∀ t cs, a.Fits t cs → cs = []) :
    (seq (group a) b).Fits t cs ↔
      ∃ t₁ t₂ cs₂, a.Fits t₁ [] ∧ b.Fits t₂ cs₂ ∧ t = t₁ ++ t₂ ∧ cs = t₁ :: cs₂ := by
  constructor
  · rintro ⟨t₁, cs₁, t₂, cs₂, ⟨cs', hfit, rfl⟩, hb, rfl, rfl⟩
    have hnil := ha _ _ hfit
    subst hnil
    exact ⟨t₁, t₂, cs₂, hfit, hb, rfl, rfl⟩
  · rintro ⟨t₁, t₂, cs₂, hfit, hb, rfl, rfl⟩
    exact ⟨t₁, [t₁], t₂, cs₂, ⟨[], hfit, rfl⟩, hb, rfl, rfl⟩

/-! ### Literals -/

/-- The characters every match contains. -/
def letters : Re → List Char
  | lit w => w
  | star _ => []
  | plus _ => []
  | seq a b => a.letters ++ b.letters
  | group a => a.letters

theorem Fits.mem_of_letter {c : Char} : ∀ {re : Re} {t : List Char} {cs : List (List Char)},
    re.Fits t cs → c ∈ re.letters → c ∈ t := by
  intro re
  induction re with
  | lit w =>
      rintro t cs ⟨rfl, -⟩ hc
      exact hc
  | star p => intro t cs _ hc; cases hc
  | plus p => intro t cs _ hc; cases hc
  | seq a b iha ihb =>
      rintro t cs ⟨t₁, cs₁, t₂, cs₂, ha, hb, rfl, -⟩ hc
      rcases List.mem_append.mp hc with hc | hc
      · exact List.mem_append_left _ (iha ha hc)
      · exact List.mem_append_right _ (ihb hb hc)
  | group a ih =>
      rintro t cs ⟨cs', ha, -⟩ hc
      exact ih ha hc

/-- A text without one of the pattern's own letters is not matched. -/
theorem groups_eq_none_of_letter {re : Re} {s : List Char} {c : Char} (hc : c ∈ re.letters)
    (hs : c ∉ s) : re.groups s = none := by
  apply groups_eq_none_iff.mpr
  rintro t cs r hfit rfl
  exact hs (List.mem_append_left _ (hfit.mem_of_letter hc))

/-- A text that does not begin with the pattern's first literal is not matched. -/
theorem groups_eq_none_of_other_start {w s : List Char} {re : Re} (hs : ¬ w <+: s) :
    (seq (lit w) re).groups s = none := by
  apply groups_eq_none_iff.mpr
  rintro t cs r ⟨t₁, cs₁, t₂, cs₂, ⟨rfl, -⟩, -, rfl, -⟩ rfl
  exact hs ⟨t₂ ++ r, (List.append_assoc _ _ _).symm⟩

/-- Searching for a literal finds it exactly where it occurs. -/
theorem search_lit {w s : List Char} : ((lit w).search s).isSome ↔ w <:+: s := by
  rw [search, List.findSome?_isSome_iff]
  constructor
  · rintro ⟨v, hv, hsome⟩
    obtain ⟨u, rfl⟩ := (List.mem_tails _ _).mp hv
    rcases hg : (lit w).groups v with - | cs
    · rw [hg] at hsome
      cases hsome
    · have hpre : w <+: v := by
        by_contra hpre
        rw [groups_eq_none_iff.mpr] at hg
        · cases hg
        · rintro t cs r ⟨rfl, -⟩ rfl
          exact hpre (List.prefix_append _ _)
      exact hpre.isInfix.trans (List.suffix_append u v).isInfix
  · rintro ⟨u, r, rfl⟩
    refine ⟨w ++ r, (List.mem_tails _ _).mpr ⟨u, by rw [List.append_assoc]⟩, ?_⟩
    have hgroups : (lit w).groups (w ++ r) = some [] := by
      refine groups_eq_some ⟨rfl, rfl⟩ rfl ?_
      rintro t' cs' r' ⟨-, rfl⟩ -
      rfl
    rw [hgroups]
    rfl

/-- A text without one of the literal's letters does not contain it. -/
theorem search_lit_none {w s : List Char} {c : Char} (hc : c ∈ w) (hs : c ∉ s) :
    (lit w).search s = none := by
  rw [← Option.not_isSome_iff_eq_none, search_lit]
  exact fun hin => hs (hin.subset hc)

end Re

/-! ### Cutting a text at a character -/

/-- The first occurrence of a character is in one place. -/
theorem append_cons_inj_first {a : Char} {x₁ z₁ x₂ z₂ : List Char} (h₁ : a ∉ x₁) (h₂ : a ∉ x₂)
    (h : x₁ ++ a :: z₁ = x₂ ++ a :: z₂) : x₁ = x₂ ∧ z₁ = z₂ := by
  induction x₁ generalizing x₂ with
  | nil =>
      cases x₂ with
      | nil => exact ⟨rfl, (List.cons.inj h).2⟩
      | cons b x₂ => exact absurd ((List.cons.inj h).1 ▸ List.mem_cons_self) h₂
  | cons b x₁ ih =>
      cases x₂ with
      | nil => exact absurd ((List.cons.inj h).1 ▸ List.mem_cons_self) h₁
      | cons b' x₂ =>
          obtain ⟨rfl, htail⟩ := List.cons.inj h
          obtain ⟨rfl, hz⟩ := ih (fun hm => h₁ (List.mem_cons_of_mem _ hm))
            (fun hm => h₂ (List.mem_cons_of_mem _ hm)) htail
          exact ⟨rfl, hz⟩

/-- And so is the last. -/
theorem append_cons_inj_last {a : Char} {x₁ z₁ x₂ z₂ : List Char} (h₁ : a ∉ z₁) (h₂ : a ∉ z₂)
    (h : x₁ ++ a :: z₁ = x₂ ++ a :: z₂) : x₁ = x₂ ∧ z₁ = z₂ := by
  have hrev := congrArg List.reverse h
  simp only [List.reverse_append, List.reverse_cons, List.append_assoc,
    List.singleton_append] at hrev
  obtain ⟨hz, hx⟩ := append_cons_inj_first (by simpa using h₁) (by simpa using h₂) hrev
  exact ⟨List.reverse_injective hx, List.reverse_injective hz⟩

end Regex
