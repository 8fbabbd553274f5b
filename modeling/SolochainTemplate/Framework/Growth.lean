import Mathlib.Data.List.Perm.Subperm
import SolochainTemplate.Framework.Gossip

/-!
# Growth and agreement

A round is a block that an author built on a longest chain of its node and that
reached everybody. Two things follow whatever else is sent, as long as nodes
settle on longest chains only. Every round leaves every node with a longer chain
than there was before. And the chains of rounds have all different lengths, so
where longest chains differ they had to be filled with other blocks: if these are
few, longest chains agree but for their ends.
-/

namespace Framework.Gossip

variable {ι α κ σ β : Type}

/-- A longest chain of a tree. -/
def Longest (t : Tree σ β) (c : List β) : Prop :=
  (∃ s, t c = some s) ∧ ∀ d s, t d = some s → d.length ≤ c.length

section Rounds

variable [DecidableEq ι] [DecidableEq β]

theorem longest_of_parents {P : Protocol ι α κ σ β} {events : List (Event ι α κ β)} {i : ι}
    {c : List β} {s : σ} (hs : P.network events i c = some s)
    (hparents : ∀ e ∈ events, e.node = i → e.parent.length < c.length) :
    Longest (P.network events i) c :=
  ⟨⟨s, hs⟩, fun _ _ hd => length_le_of_parents hparents hd⟩

variable [Preorder κ]

/-- `Rounds first tips events`: the events `first`, and after them rounds that
authored the chains `tips`, the last one first. The author built on a longest
chain of its node, and the new chain reached every node before the next round;
no node has settled off it. Anything else may happen, but nodes settle on longest
chains only. -/
inductive Rounds (P : Protocol ι α κ σ β) (near : α → κ → Prop) (first : List (Event ι α κ β)) :
    List (List β) → List (Event ι α κ β) → Prop where
  | start : Rounds P near first [] first
  | other {tips} (events e) (h : Rounds P near first tips events)
      (hsettle : ∀ j f, e = .settle j f → ∃ d, Longest (P.network events j) d ∧ f <+: d) :
      Rounds P near first tips (events ++ [e])
  | round {tips} (events i c a b s' later) (h : Rounds P near first tips events)
      (hlongest : Longest (P.network events i) c)
      (hauthored : P.outcome (P.network events i) (.author i c a) = some (b, s'))
      (hreached : ∀ j, Reached P near j (c ++ [b]) (events ++ [.author i c a] ++ later))
      (hsettle : ∀ j f, .settle j f ∈ events ++ [.author i c a] ++ later → f <+: c ++ [b]) :
      Rounds P near first ((c ++ [b]) :: tips) (events ++ [.author i c a] ++ later)

variable {P : Protocol ι α κ σ β} {near : α → κ → Prop} {Inv : σ → Prop}
  {first events : List (Event ι α κ β)} {tips : List (List β)} {m : ℕ}

/-- Every node knows a chain of at least `m` blocks. -/
def Height (P : Protocol ι α κ σ β) (events : List (Event ι α κ β)) (m : ℕ) : Prop :=
  ∀ j, ∃ c s, P.network events j c = some s ∧ m ≤ c.length

omit [Preorder κ] in
theorem height_init (P : Protocol ι α κ σ β) : Height P [] 0 :=
  fun j => ⟨[], P.genesis, (init_root j : P.init j [] = _), Nat.zero_le _⟩

/-- Settling on a longest chain keeps one, so no event lowers the height. -/
theorem Height.other (hP : P.Laws near Inv) (h : Height P events m) {e : Event ι α κ β}
    (hsettle : ∀ j f, e = .settle j f → ∃ d, Longest (P.network events j) d ∧ f <+: d) :
    Height P (events ++ [e]) m := by
  intro j
  obtain ⟨c, s, hs, hlength⟩ := h j
  by_cases hoff : ∃ f, e = .settle j f
  · rcases hoff with ⟨f, rfl⟩
    obtain ⟨d, ⟨⟨u, hu⟩, hmax⟩, hfd⟩ := hsettle j f rfl
    refine ⟨d, u, network_keeps hP hu ?_, le_trans hlength (hmax c s hs)⟩
    intro f' hf'
    obtain ⟨-, rfl⟩ := Event.settle.inj (List.mem_singleton.mp hf')
    exact hfd
  · refine ⟨c, s, network_keeps hP hs ?_, hlength⟩
    intro f hf
    exact absurd ⟨f, (List.mem_singleton.mp hf).symm⟩ hoff

theorem height_round (hP : P.Laws near Inv) {c : List β}
    (hreached : ∀ j, Reached P near j c events)
    (hsettle : ∀ j f, .settle j f ∈ events → f <+: c) : Height P events c.length := by
  intro j
  obtain ⟨s, hs⟩ := (hreached j).exists_known hP (hsettle j)
  exact ⟨c, s, hs, le_rfl⟩

omit [Preorder κ] in
theorem Height.le_longest (h : Height P events m) {i : ι} {c : List β}
    (hc : Longest (P.network events i) c) : m ≤ c.length := by
  obtain ⟨d, s, hs, hlength⟩ := h i
  exact le_trans hlength (hc.2 d s hs)

/-- **Chains grow**: where every node knew a chain of `m` blocks, after the rounds
every node knows one of a block more for each. By induction on the rounds: the
author's longest chain has as many by hypothesis, and its successor reaches
everybody. -/
theorem rounds_growth (hP : P.Laws near Inv) (hfirst : Height P first m)
    (h : Rounds P near first tips events) : Height P events (m + tips.length) := by
  induction h with
  | start => exact hfirst
  | other events e h hsettle ih => exact ih.other hP hsettle
  | round events i c a b s' later h hlongest hauthored hreached hsettle ih =>
      have hle := ih.le_longest hlongest
      intro j
      obtain ⟨d, s, hs, hlength⟩ := height_round hP hreached hsettle j
      rw [List.length_append] at hlength
      exact ⟨d, s, hs, le_trans (Nat.succ_le_succ hle) hlength⟩

theorem height_tip (hP : P.Laws near Inv) (h : Rounds P near first tips events) {t : List β}
    (ht : t ∈ tips) : Height P events t.length := by
  induction h with
  | start => cases ht
  | other events e h hsettle ih => exact (ih ht).other hP hsettle
  | round events i c a b s' later h hlongest hauthored hreached hsettle ih =>
      have hround := height_round hP hreached hsettle
      rcases List.mem_cons.mp ht with rfl | ht
      · exact hround
      · have hle := (ih ht).le_longest hlongest
        intro j
        obtain ⟨d, s, hs, hlength⟩ := hround j
        rw [List.length_append] at hlength
        exact ⟨d, s, hs, le_trans hle (le_trans (Nat.le_succ _) hlength)⟩

/-- Every round's chain is longer than those of the rounds before. -/
theorem tips_longer (hP : P.Laws near Inv) (h : Rounds P near first tips events) :
    tips.Pairwise fun t t' => t'.length < t.length := by
  induction h with
  | start => exact List.Pairwise.nil
  | other events e h hsettle ih => exact ih
  | round events i c a b s' later h hlongest hauthored hreached hsettle ih =>
      refine List.pairwise_cons.mpr ⟨?_, ih⟩
      intro t ht
      rw [List.length_append]
      exact Nat.lt_succ_of_le ((height_tip hP h ht).le_longest hlongest)

theorem lt_tip_length (hP : P.Laws near Inv) (hfirst : Height P first m)
    (h : Rounds P near first tips events) {t : List β} (ht : t ∈ tips) : m < t.length := by
  induction h with
  | start => cases ht
  | other events e h hsettle ih => exact ih ht
  | round events i c a b s' later h hlongest hauthored hreached hsettle ih =>
      rcases List.mem_cons.mp ht with rfl | ht
      · have hle := (rounds_growth hP hfirst h).le_longest hlongest
        rw [List.length_append]
        exact Nat.lt_succ_of_le (le_trans (Nat.le_add_right _ _) hle)
      · exact ih ht

/-! ## Agreement -/

omit [DecidableEq β] in
theorem countP_positions_le (q : β → Bool) (l : List β) {positions : List ℕ}
    (hnodup : positions.Nodup) :
    positions.countP (fun k => (l[k]?).any q) ≤ l.countP q := by
  have hentries : (List.range l.length).map (fun k => l[k]?) = l.map some := by
    apply List.ext_getElem
    · simp
    · intro k hk hk'
      simp
  have hcount := congrArg (List.countP (Option.any q)) hentries
  rw [List.countP_map, List.countP_map] at hcount
  calc positions.countP (fun k => (l[k]?).any q)
      ≤ (List.range l.length).countP (fun k => (l[k]?).any q) := by
        rw [List.countP_eq_length_filter, List.countP_eq_length_filter]
        apply (List.subperm_of_subset (hnodup.filter _) _).length_le
        intro k hk
        obtain ⟨-, hq⟩ := List.mem_filter.mp hk
        refine List.mem_filter.mpr ⟨List.mem_range.mpr ?_, hq⟩
        by_contra hlt
        rw [List.getElem?_eq_none (Nat.le_of_not_lt hlt)] at hq
        cases hq
    _ = l.countP q := hcount

/-- The chain `d` has, at the height of `t`, a block with `q`. -/
def spoils (q : β → Bool) (d t : List β) : Bool := (d[t.length - 1]?).any q

omit [DecidableEq β] in
/-- Chains of different lengths above `m` are spoilt by different blocks above
`m`. -/
theorem countP_spoils_le (q : β → Bool) (d : List β)
    (hlonger : tips.Pairwise fun t t' => t'.length < t.length)
    (hm : ∀ t ∈ tips, m < t.length) : tips.countP (spoils q d) ≤ (d.drop m).countP q := by
  have hnodup : (tips.map fun t => t.length - 1 - m).Nodup := by
    rw [List.Nodup, List.pairwise_map]
    apply hlonger.imp_of_mem
    intro t t' ht ht' hlt
    have hm' := hm t' ht'
    omega
  calc tips.countP (spoils q d)
      = (tips.map fun t => t.length - 1 - m).countP fun k => ((d.drop m)[k]?).any q := by
        rw [List.countP_map]
        apply List.countP_congr
        intro t ht
        have hmt := hm t ht
        have hheight : m + (t.length - 1 - m) = t.length - 1 := by omega
        simp only [spoils, Function.comp_apply, List.getElem?_drop, hheight]
    _ ≤ (d.drop m).countP q := countP_positions_le q (d.drop m) hnodup

omit [DecidableEq β] in
theorem tip_eq_of_length (hlonger : tips.Pairwise fun t t' => t'.length < t.length)
    {t t' : List β} (ht : t ∈ tips) (ht' : t' ∈ tips) (hlength : t.length = t'.length) :
    t = t' := by
  by_contra hne
  have hdiffer : tips.Pairwise fun t t' => t.length ≠ t'.length := hlonger.imp Nat.ne_of_gt
  have : Std.Symm fun t t' : List β => t.length ≠ t'.length := ⟨fun _ _ h => h.symm⟩
  exact hdiffer.forall ht ht' hne hlength

omit [DecidableEq β] in
theorem add_length_le_head {t : List β}
    (hlonger : (t :: tips).Pairwise fun t t' => t'.length < t.length)
    (hm : ∀ u ∈ t :: tips, m < u.length) : m + (t :: tips).length ≤ t.length := by
  induction tips generalizing t with
  | nil => exact hm t List.mem_cons_self
  | cons t' tips ih =>
      obtain ⟨hlt, hrest⟩ := List.pairwise_cons.mp hlonger
      have hle := ih hrest fun u hu => hm u (List.mem_cons_of_mem _ hu)
      exact lt_of_le_of_lt hle (hlt t' List.mem_cons_self)

section Agreement

variable (hP : P.Laws near Inv) (hfirst : Height P first m)
  (hrounds : Rounds P near first tips events) {q : β → Bool}
include hP hfirst hrounds

/-- A longest chain continues the chain of every round that it does not spoil. -/
theorem tip_prefix {i : ι} {d t : List β} (hlongest : Longest (P.network events i) d)
    (hblocks : ∀ c b, c ++ [b] <+: d → m ≤ c.length → c ++ [b] ∈ tips ∨ q b = true)
    (ht : t ∈ tips) (hq : spoils q d t = false) : t <+: d := by
  have hle := (height_tip hP hrounds ht).le_longest hlongest
  have hm := lt_tip_length hP hfirst hrounds ht
  obtain ⟨k, hk⟩ : ∃ k, t.length = k + 1 := ⟨t.length - 1, by omega⟩
  have hlt : k < d.length := by omega
  have htake : d.take k ++ [d[k]] <+: d := by
    rw [← List.take_succ_eq_append_getElem hlt]
    exact List.take_prefix _ _
  rcases hblocks _ _ htake (by rw [List.length_take]; omega) with htip | hqb
  · -- the chain of the round at this height is the one of this length
    have hsame : t = d.take k ++ [d[k]] := by
      apply tip_eq_of_length (tips_longer hP hrounds) ht htip
      rw [hk, List.length_append, List.length_take, Nat.min_eq_left hlt.le]
      rfl
    rwa [hsame]
  · have hspoils : spoils q d t = true := by
      unfold spoils
      rw [hk, Nat.add_sub_cancel, List.getElem?_eq_getElem hlt, Option.any_some]
      exact hqb
    rw [hspoils] at hq
    cases hq

/-- **Agreement.** Longest chains whose blocks above `m` are of rounds or have `q`
have a common prefix with a block for every round, less the blocks with `q` on
either. -/
theorem longest_agree {i j : ι} {c d : List β} (hc : Longest (P.network events i) c)
    (hd : Longest (P.network events j) d)
    (hblocks : ∀ l b, l ++ [b] <+: c ∨ l ++ [b] <+: d → m ≤ l.length →
      l ++ [b] ∈ tips ∨ q b = true)
    (hfew : (c.drop m).countP q + (d.drop m).countP q < tips.length) :
    ∃ common, common <+: c ∧ common <+: d ∧
      m + tips.length ≤ common.length + ((c.drop m).countP q + (d.drop m).countP q) := by
  have hlonger := tips_longer hP hrounds
  have hm : ∀ t ∈ tips, m < t.length := fun t ht => lt_tip_length hP hfirst hrounds ht
  -- the rounds that neither chain spoils
  let kept := (tips.filter fun t => !spoils q c t).filter fun t => !spoils q d t
  have hkept : kept.Sublist tips := List.filter_sublist.trans List.filter_sublist
  have hmany : tips.length ≤
      kept.length + ((c.drop m).countP q + (d.drop m).countP q) := by
    have hsplit := List.length_eq_length_filter_add (l := tips) (spoils q c)
    have hsplit' := List.length_eq_length_filter_add
      (l := tips.filter fun t => !spoils q c t) (spoils q d)
    have hspoilt := countP_spoils_le q c hlonger hm
    have hspoilt' : ((tips.filter fun t => !spoils q c t).filter (spoils q d)).length ≤
        (d.drop m).countP q := by
      rw [← List.countP_eq_length_filter]
      exact le_trans List.filter_sublist.countP_le (countP_spoils_le q d hlonger hm)
    rw [List.countP_eq_length_filter] at hspoilt
    have hlength : kept.length =
        ((tips.filter fun t => !spoils q c t).filter fun t => !spoils q d t).length := rfl
    omega
  rcases hcases : kept with - | ⟨t, rest⟩
  · rw [hcases, List.length_nil] at hmany
    omega
  · have ht : t ∈ kept := hcases ▸ List.mem_cons_self
    obtain ⟨htc, htd⟩ := List.mem_filter.mp ht
    obtain ⟨htip, htc⟩ := List.mem_filter.mp htc
    rw [hcases] at hmany hkept
    have hhead : m + (t :: rest).length ≤ t.length :=
      add_length_le_head (hlonger.sublist hkept) fun u hu => hm u (hkept.subset hu)
    refine ⟨t, ?_, ?_, by omega⟩
    · exact tip_prefix hP hfirst hrounds hc (fun l b h => hblocks l b (Or.inl h)) htip
        (by simpa using htc)
    · exact tip_prefix hP hfirst hrounds hd (fun l b h => hblocks l b (Or.inr h)) htip
        (by simpa using htd)

end Agreement

end Rounds

end Framework.Gossip
