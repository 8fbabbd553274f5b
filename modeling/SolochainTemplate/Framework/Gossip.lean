import Mathlib.Data.List.Induction
import Mathlib.Data.List.Infix
import Mathlib.Logic.Function.Basic
import Mathlib.Order.Basic
import SolochainTemplate.Framework.Runs

/-!
# Nodes that author, verify, exchange and give up blocks

A chain is the list of its blocks, and a node keeps the state of the chains it
knows. Events happen at one node each: it authors a block on a chain it knows, it
receives a block for a chain it knows, from whoever sent it, or it settles on a
chain it knows and forgets what does not continue it, as finality and pruning
make it do. Nothing is assumed of the order of events, of what is received, of
what is settled on or of how many nodes there are, so a sequence of events is any
interleaving and any adversary.

Verifying may depend on the node's clock. Two properties of the protocol decide
what its nodes agree on (`Laws`): verifying is monotone in the clock, and what a
node authors verifies on every clock near its own.
-/

namespace Framework.Gossip

variable {ι α κ σ β : Type}

/-- What the nodes `ι` run. `α` is what an author finds when it is its turn, `κ`
what a verifier reads from its clock. -/
structure Protocol (ι α κ σ β : Type) where
  genesis : σ
  -- what a block does to the state
  exec : σ → β → Option σ
  author : ι → α → List β → σ → Option (β × σ)
  accept : ι → κ → List β → σ → β → Option σ

/-- The state a chain leads to, whoever executes it. -/
def Protocol.replay (P : Protocol ι α κ σ β) (c : List β) : Option σ :=
  run P.exec P.genesis c

inductive Event (ι α κ β : Type) where
  | author (node : ι) (parent : List β) (reading : α)
  | receive (node : ι) (parent : List β) (clock : κ) (block : β)
  | settle (node : ι) (chain : List β)

def Event.node : Event ι α κ β → ι
  | .author i _ _ => i
  | .receive i _ _ _ => i
  | .settle i _ => i

def Event.parent : Event ι α κ β → List β
  | .author _ c _ => c
  | .receive _ c _ _ => c
  | .settle _ c => c

/-- The chains a node knows, with their states. -/
abbrev Tree (σ β : Type) : Type := List β → Option σ

section Machine

variable [DecidableEq β]

/-- Settling on a known chain leaves what continues it. -/
def settleOn (t : Tree σ β) (f : List β) : Tree σ β :=
  fun c => if (t f).isSome ∧ ¬ f <+: c then none else t c

variable (P : Protocol ι α κ σ β)

/-- The block an event brings on a known chain, and the state it leaves; nothing
if the chain is not known or the block is refused. -/
def Protocol.outcome (t : Tree σ β) : Event ι α κ β → Option (β × σ)
  | .author i c a => (t c).bind (P.author i a c)
  | .receive i c k b => (t c).bind fun s => (P.accept i k c s b).map fun s' => (b, s')
  | .settle _ _ => none

/-- What an event makes of its node's tree: one chain more, or what settling
leaves. -/
def Protocol.advance (t : Tree σ β) (e : Event ι α κ β) : Tree σ β :=
  match P.outcome t e, e with
  | some (b, s'), e => Function.update t (e.parent ++ [b]) (some s')
  | none, .settle _ f => settleOn t f
  | none, _ => t

/-- At first every node knows the empty chain. -/
def Protocol.init : ι → Tree σ β :=
  fun _ => Function.update (fun _ => none) [] (some P.genesis)

variable [DecidableEq ι]

def Protocol.step (net : ι → Tree σ β) (e : Event ι α κ β) : ι → Tree σ β :=
  Function.update net e.node (P.advance (net e.node) e)

def Protocol.network (events : List (Event ι α κ β)) : ι → Tree σ β :=
  events.foldl P.step P.init

theorem Protocol.network_snoc (events : List (Event ι α κ β)) (e : Event ι α κ β) :
    P.network (events ++ [e]) = P.step (P.network events) e := by
  rw [network, List.foldl_append]
  rfl

theorem Protocol.network_snoc_self (events : List (Event ι α κ β)) (e : Event ι α κ β) :
    P.network (events ++ [e]) e.node = P.advance (P.network events e.node) e := by
  rw [network_snoc, step, Function.update_self]

theorem Protocol.network_snoc_of_ne (events : List (Event ι α κ β)) {e : Event ι α κ β} {i : ι}
    (hi : i ≠ e.node) : P.network (events ++ [e]) i = P.network events i := by
  rw [network_snoc, step, Function.update_of_ne hi]

end Machine

/-! ## Trees -/

section Trees

variable [DecidableEq β] {P : Protocol ι α κ σ β} {t : Tree σ β} {e : Event ι α κ β}

theorem settleOn_eq_some {f c : List β} {s : σ} (h : settleOn t f c = some s) :
    t c = some s := by
  unfold settleOn at h
  split_ifs at h
  exact h

theorem settleOn_keeps {f c : List β} (h : f <+: c) : settleOn t f c = t c := by
  unfold settleOn
  rw [if_neg]
  exact fun hoff => hoff.2 h

theorem settleOn_of_unknown {f : List β} (h : t f = none) : settleOn t f = t := by
  funext c
  simp [settleOn, h]

theorem advance_of_some {b : β} {s' : σ} (ho : P.outcome t e = some (b, s')) :
    P.advance t e = Function.update t (e.parent ++ [b]) (some s') := by
  unfold Protocol.advance
  rw [ho]

theorem advance_of_none (ho : P.outcome t e = none) (he : ∀ i f, e ≠ .settle i f) :
    P.advance t e = t := by
  unfold Protocol.advance
  rw [ho]
  cases e with
  | author i c a => rfl
  | receive i c k b => rfl
  | settle i f => exact absurd rfl (he i f)

theorem advance_settle (i : ι) (f : List β) :
    P.advance t (.settle i f) = settleOn t f := rfl

omit [DecidableEq β] in
theorem outcome_parent {b : β} {s' : σ} (ho : P.outcome t e = some (b, s')) :
    ∃ s, t e.parent = some s := by
  cases e with
  | author i c a =>
      obtain ⟨s, hs, -⟩ := Option.bind_eq_some_iff.mp ho
      exact ⟨s, hs⟩
  | receive i c k b =>
      obtain ⟨s, hs, -⟩ := Option.bind_eq_some_iff.mp ho
      exact ⟨s, hs⟩
  | settle i f => cases ho

/-- **What a node knows, it knew before or the event brought.** -/
theorem advance_eq_some {c : List β} {s : σ} (h : P.advance t e c = some s) :
    t c = some s ∨ ∃ b, P.outcome t e = some (b, s) ∧ c = e.parent ++ [b] := by
  rcases ho : P.outcome t e with - | ⟨b, s'⟩
  · cases e with
    | author i d a => exact Or.inl (by rwa [advance_of_none ho (by simp)] at h)
    | receive i d k b => exact Or.inl (by rwa [advance_of_none ho (by simp)] at h)
    | settle i f => exact Or.inl (settleOn_eq_some h)
  · rw [advance_of_some ho] at h
    by_cases hc : c = e.parent ++ [b]
    · subst hc
      rw [Function.update_self] at h
      cases h
      exact Or.inr ⟨b, rfl, rfl⟩
    · rw [Function.update_of_ne hc] at h
      exact Or.inl h

theorem init_root (i : ι) : P.init i [] = some P.genesis :=
  Function.update_self ..

theorem init_eq_some {i : ι} {c : List β} {s : σ} (h : P.init i c = some s) :
    c = [] ∧ s = P.genesis := by
  by_cases hc : c = []
  · subst hc
    rw [init_root] at h
    exact ⟨rfl, (Option.some.inj h).symm⟩
  · rw [Protocol.init, Function.update_of_ne hc] at h
    cases h

end Trees

/-! ## The laws of a protocol -/

section Laws

variable [Preorder κ]

/-- What the nodes rely on. `near a k` says that a verifier reading `k` is close
enough to an author reading `a`; the laws are about states that keep `Inv`. -/
structure Protocol.Laws (P : Protocol ι α κ σ β) (near : α → κ → Prop) (Inv : σ → Prop) :
    Prop where
  genesis_inv : Inv P.genesis
  accept_inv : ∀ {i k c s b s'}, Inv s → P.accept i k c s b = some s' → Inv s'
  accept_exec : ∀ {i k c s b s'}, Inv s → P.accept i k c s b = some s' → P.exec s b = some s'
  accept_mono : ∀ {i j k k' c s b s'}, Inv s → k ≤ k' → P.accept i k c s b = some s' →
    P.accept j k' c s b = some s'
  author_inv : ∀ {i a c s b s'}, Inv s → P.author i a c s = some (b, s') → Inv s'
  author_exec : ∀ {i a c s b s'}, Inv s → P.author i a c s = some (b, s') → P.exec s b = some s'
  author_accept : ∀ {i j a k c s b s'}, Inv s → near a k → P.author i a c s = some (b, s') →
    P.accept j k c s b = some s'

/-- `k` is not behind the reading of an event: near what an author read, later
than what a verifier read. -/
def Event.Covered (near : α → κ → Prop) (k : κ) : Event ι α κ β → Prop
  | .author _ _ a => near a k
  | .receive _ _ k' _ => k' ≤ k
  | .settle _ _ => True

/-- `k` is not behind any reading of node `i`. -/
def Covers (near : α → κ → Prop) (i : ι) (k : κ) (events : List (Event ι α κ β)) : Prop :=
  ∀ e ∈ events, e.node = i → e.Covered near k

/-- A node knows chains by what executing them gives, and their states keep the
invariant. -/
def Protocol.Ok (P : Protocol ι α κ σ β) (Inv : σ → Prop) (t : Tree σ β) : Prop :=
  ∀ c s, t c = some s → P.replay c = some s ∧ Inv s

omit [Preorder κ] in
theorem Protocol.Ok.state_eq {P : Protocol ι α κ σ β} {Inv : σ → Prop} {t : Tree σ β}
    (ht : P.Ok Inv t) {c : List β} {s s' : σ} (hs : t c = some s) (hs' : P.replay c = some s') :
    s = s' :=
  Option.some.inj ((ht c s hs).1.symm.trans hs')

variable [DecidableEq β] {P : Protocol ι α κ σ β} {near : α → κ → Prop} {Inv : σ → Prop}
  (hP : P.Laws near Inv) {t : Tree σ β} (ht : P.Ok Inv t) {e : Event ι α κ β}
include hP ht

omit [DecidableEq β] in
/-- What one event brings is sound, and verifies on every clock that is not
behind the event's. -/
theorem Protocol.Laws.outcome_spec {b : β} {s' : σ} (ho : P.outcome t e = some (b, s')) :
    ∃ s, P.replay e.parent = some s ∧ Inv s ∧ P.replay (e.parent ++ [b]) = some s' ∧ Inv s' ∧
      ∀ j k, e.Covered near k → P.accept j k e.parent s b = some s' := by
  have hreplay : ∀ {c s}, t c = some s → P.exec s b = some s' →
      P.replay (c ++ [b]) = some s' := by
    intro c s hs hexec
    rw [Protocol.replay, run_snoc_eq_some (ht c s hs).1, hexec]
  cases e with
  | author i c a =>
      obtain ⟨s, hs, hauthor⟩ := Option.bind_eq_some_iff.mp ho
      obtain ⟨hstate, hInv⟩ := ht c s hs
      refine ⟨s, hstate, hInv, hreplay hs (hP.author_exec hInv hauthor),
        hP.author_inv hInv hauthor, ?_⟩
      intro j k hk
      exact hP.author_accept hInv hk hauthor
  | receive i c k' b' =>
      obtain ⟨s, hs, hmap⟩ := Option.bind_eq_some_iff.mp ho
      obtain ⟨s₁, haccept, hpair⟩ := Option.map_eq_some_iff.mp hmap
      cases hpair
      obtain ⟨hstate, hInv⟩ := ht c s hs
      refine ⟨s, hstate, hInv, hreplay hs (hP.accept_exec hInv haccept),
        hP.accept_inv hInv haccept, ?_⟩
      intro j k hk
      exact hP.accept_mono hInv hk haccept
  | settle i f => cases ho

theorem Protocol.Laws.advance_ok : P.Ok Inv (P.advance t e) := by
  intro c s hc
  rcases advance_eq_some hc with hold | ⟨b, ho, rfl⟩
  · exact ht c s hold
  · obtain ⟨-, -, -, hstate, hInv, -⟩ := hP.outcome_spec ht ho
    exact ⟨hstate, hInv⟩

/-- Only settling elsewhere loses a chain: to learn a chain again gives the state
it had, as executing is a function. -/
theorem Protocol.Laws.advance_keeps {c : List β} {s : σ} (hs : t c = some s)
    (hsettle : ∀ i f, e = .settle i f → f <+: c) : P.advance t e c = some s := by
  rcases ho : P.outcome t e with - | ⟨b, s'⟩
  · cases e with
    | author i d a => rwa [advance_of_none ho (by simp)]
    | receive i d k b => rwa [advance_of_none ho (by simp)]
    | settle i f => rwa [advance_settle, settleOn_keeps (hsettle i f rfl)]
  · obtain ⟨-, -, -, hstate, -⟩ := hP.outcome_spec ht ho
    rw [advance_of_some ho]
    by_cases hc : c = e.parent ++ [b]
    · subst hc
      rw [Function.update_self, ht.state_eq hs hstate]
    · rw [Function.update_of_ne hc, hs]

end Laws

/-! ## What a node knows -/

section Network

variable [DecidableEq ι] [DecidableEq β] [Preorder κ] {P : Protocol ι α κ σ β}
  {near : α → κ → Prop} {Inv : σ → Prop} {events : List (Event ι α κ β)}

/-- **Every node keeps the invariant in every run.** -/
theorem network_ok (hP : P.Laws near Inv) (events : List (Event ι α κ β)) (i : ι) :
    P.Ok Inv (P.network events i) := by
  induction events using List.reverseRecOn with
  | nil =>
      intro c s hc
      obtain ⟨rfl, rfl⟩ := init_eq_some (i := i) hc
      exact ⟨rfl, hP.genesis_inv⟩
  | append_singleton events e ih =>
      by_cases hi : i = e.node
      · subst hi
        rw [Protocol.network_snoc_self]
        exact hP.advance_ok ih
      · rwa [Protocol.network_snoc_of_ne _ _ hi]

/-- What a known chain's state is does not depend on the node, nor on the run. -/
theorem state_unique (hP : P.Laws near Inv) {events' : List (Event ι α κ β)} {i j : ι}
    {c : List β} {s s' : σ} (hs : P.network events i c = some s)
    (hs' : P.network events' j c = some s') : s = s' :=
  (network_ok hP events i).state_eq hs (network_ok hP events' j c s' hs').1

/-- **Nodes forget nothing** but what they settle against. -/
theorem network_keeps (hP : P.Laws near Inv) {later : List (Event ι α κ β)} {i : ι}
    {c : List β} {s : σ} (hs : P.network events i c = some s)
    (hsettle : ∀ f, .settle i f ∈ later → f <+: c) :
    P.network (events ++ later) i c = some s := by
  induction later using List.reverseRecOn with
  | nil => rwa [List.append_nil]
  | append_singleton later e ih =>
      have hknown := ih fun f hf => hsettle f (List.mem_append_left _ hf)
      rw [← List.append_assoc]
      by_cases hi : i = e.node
      · subst hi
        rw [Protocol.network_snoc_self]
        apply hP.advance_keeps (network_ok hP _ _) hknown
        rintro j f rfl
        exact hsettle f (List.mem_append_right _ List.mem_cons_self)
      · rwa [Protocol.network_snoc_of_ne _ _ hi]

omit [Preorder κ] in
theorem network_new {later : List (Event ι α κ β)} {i : ι} {c : List β} {s : σ}
    (hs : P.network (events ++ later) i c = some s) :
    P.network events i c = some s ∨
      ∃ e ∈ later, e.node = i ∧ ∃ t b, P.outcome t e = some (b, s) ∧ c = e.parent ++ [b] := by
  induction later using List.reverseRecOn generalizing s with
  | nil => exact Or.inl (by rwa [List.append_nil] at hs)
  | append_singleton later e ih =>
      have hearlier : P.network (events ++ later) i c = some s →
          P.network events i c = some s ∨ ∃ e' ∈ later ++ [e], e'.node = i ∧
            ∃ t b, P.outcome t e' = some (b, s) ∧ c = e'.parent ++ [b] := by
        intro h
        rcases ih h with hbefore | ⟨e', he', hrest⟩
        · exact Or.inl hbefore
        · exact Or.inr ⟨e', List.mem_append_left _ he', hrest⟩
      rw [← List.append_assoc] at hs
      by_cases hi : i = e.node
      · subst hi
        rw [Protocol.network_snoc_self] at hs
        rcases advance_eq_some hs with hold | ⟨b, ho, hc⟩
        · exact hearlier hold
        · exact Or.inr ⟨e, List.mem_append_right _ List.mem_cons_self, rfl, _, b, ho, hc⟩
      · rw [Protocol.network_snoc_of_ne _ _ hi] at hs
        exact hearlier hs

/-- Event `e` of the run brought its node the block `b` for the chain `c`. -/
def Brings (P : Protocol ι α κ σ β) (events : List (Event ι α κ β)) (e : Event ι α κ β)
    (c : List β) (b : β) : Prop :=
  ∃ before after s', events = before ++ e :: after ∧ e.parent = c ∧
    P.outcome (P.network before e.node) e = some (b, s')

omit [Preorder κ] in
theorem Brings.append {e : Event ι α κ β} {c : List β} {b : β} (h : Brings P events e c b)
    (later : List (Event ι α κ β)) : Brings P (events ++ later) e c b := by
  rcases h with ⟨before, after, s', rfl, hparent, ho⟩
  exact ⟨before, after ++ later, s', by simp, hparent, ho⟩

omit [Preorder κ] in
/-- **Every block of a known chain came with an event** at the node, on the chain
below it. -/
theorem exists_brings {i : ι} {c d : List β} {b : β} {s : σ}
    (hs : P.network events i (c ++ b :: d) = some s) :
    ∃ e ∈ events, e.node = i ∧ Brings P events e c b := by
  induction events using List.reverseRecOn generalizing d s with
  | nil =>
      obtain ⟨hnil, -⟩ := init_eq_some (i := i) hs
      exact absurd hnil (by simp)
  | append_singleton events e ih =>
      have hearlier : ∀ {d s}, P.network events i (c ++ b :: d) = some s →
          ∃ e' ∈ events ++ [e], e'.node = i ∧ Brings P (events ++ [e]) e' c b := by
        intro d s h
        obtain ⟨e', he', hnode, hbrings⟩ := ih h
        exact ⟨e', List.mem_append_left _ he', hnode, hbrings.append _⟩
      by_cases hi : i = e.node
      · subst hi
        rw [Protocol.network_snoc_self] at hs
        rcases advance_eq_some hs with hold | ⟨b', ho, hc⟩
        · exact hearlier hold
        · rcases List.eq_nil_or_concat d with rfl | ⟨d', x, rfl⟩
          · obtain ⟨rfl, hb⟩ := List.append_inj' hc rfl
            obtain rfl : b = b' := List.singleton_inj.mp hb
            exact ⟨e, List.mem_append_right _ List.mem_cons_self, rfl, events, [], s, rfl, rfl, ho⟩
          · -- the block is one of the parent's
            obtain ⟨u, hu⟩ := outcome_parent ho
            have hparent : c ++ b :: d' = e.parent := by
              rw [List.concat_eq_append, ← List.cons_append, ← List.append_assoc] at hc
              exact (List.append_inj' hc rfl).1
            rw [← hparent] at hu
            exact hearlier hu
      · rw [Protocol.network_snoc_of_ne _ _ hi] at hs
        exact hearlier hs

omit [Preorder κ] in
theorem known_before {i : ι} {c d : List β} {s : σ}
    (hs : P.network events i (c ++ d) = some s) :
    ∃ before after u, events = before ++ after ∧ P.network before i c = some u := by
  cases d with
  | nil => exact ⟨events, [], s, by simp, by rwa [List.append_nil] at hs⟩
  | cons b d =>
      obtain ⟨e, -, rfl, before, after, s', rfl, rfl, ho⟩ := exists_brings hs
      obtain ⟨u, hu⟩ := outcome_parent ho
      exact ⟨before, e :: after, u, rfl, hu⟩

omit [Preorder κ] in
theorem length_le_of_parents {i : ι} {n : ℕ}
    (hparents : ∀ e ∈ events, e.node = i → e.parent.length < n) {c : List β} {s : σ}
    (hs : P.network events i c = some s) : c.length ≤ n := by
  rcases List.eq_nil_or_concat c with rfl | ⟨d, b, rfl⟩
  · exact Nat.zero_le _
  · rw [List.concat_eq_append] at hs ⊢
    obtain ⟨e, he, hnode, -, -, -, -, rfl, -⟩ := exists_brings hs
    rw [List.length_append]
    exact hparents e he hnode

theorem brings_spec (hP : P.Laws near Inv) {e : Event ι α κ β} {c : List β} {b : β}
    (h : Brings P events e c b) :
    ∃ s s', P.replay c = some s ∧ Inv s ∧ P.replay (c ++ [b]) = some s' ∧
      ∀ j k, e.Covered near k → P.accept j k c s b = some s' := by
  rcases h with ⟨before, after, s', -, rfl, ho⟩
  obtain ⟨s, hs, hInv, hs', -, haccept⟩ := hP.outcome_spec (network_ok hP before e.node) ho
  exact ⟨s, s', hs, hInv, hs', haccept⟩

/-! ## Blocks that reach a node -/

/-- `k` is not behind the reading with which some node got the block `b` for the
chain `c`. -/
def Timely (P : Protocol ι α κ σ β) (near : α → κ → Prop) (events : List (Event ι α κ β))
    (c : List β) (b : β) (k : κ) : Prop :=
  ∃ e, Brings P events e c b ∧ e.Covered near k

/-- The blocks of a chain reach a node: from a chain it knows on they are handed
to it one after another, each once and each in time, with anything else before,
between and after. -/
inductive Reached (P : Protocol ι α κ σ β) (near : α → κ → Prop) (j : ι) :
    List β → List (Event ι α κ β) → Prop where
  | known {events c s} (h : P.network events j c = some s) : Reached P near j c events
  | block {events c b k} (h : Reached P near j c events) (htimely : Timely P near events c b k) :
      Reached P near j (c ++ [b]) (events ++ [.receive j c k b])
  | later {events c} (e) (h : Reached P near j c events) : Reached P near j c (events ++ [e])

theorem Timely.append {c : List β} {b : β} {k : κ} (h : Timely P near events c b k)
    (later : List (Event ι α κ β)) : Timely P near (events ++ later) c b k := by
  rcases h with ⟨e, hbrings, hcovered⟩
  exact ⟨e, hbrings.append later, hcovered⟩

theorem Reached.append {j : ι} {c : List β} (h : Reached P near j c events)
    (later : List (Event ι α κ β)) : Reached P near j c (events ++ later) := by
  induction later using List.reverseRecOn with
  | nil => rwa [List.append_nil]
  | append_singleton later e ih =>
      rw [← List.append_assoc]
      exact ih.later e

theorem network_receive (hP : P.Laws near Inv) {j : ι} {c : List β} {k : κ} {b : β} {s : σ}
    (hs : P.network events j c = some s) (htimely : Timely P near events c b k) :
    ∃ s', P.network (events ++ [.receive j c k b]) j (c ++ [b]) = some s' ∧
      P.replay (c ++ [b]) = some s' := by
  rcases htimely with ⟨e, hbrings, hcovered⟩
  obtain ⟨u, s', hu, -, hs', haccept⟩ := brings_spec hP hbrings
  obtain rfl : s = u := (network_ok hP events j).state_eq hs hu
  have ho : P.outcome (P.network events j) (.receive j c k b : Event ι α κ β) =
      some (b, s') := by
    rw [Protocol.outcome, hs, Option.bind_some, haccept j k hcovered, Option.map_some]
  refine ⟨s', ?_, hs'⟩
  have hself := P.network_snoc_self events (.receive j c k b)
  rw [Event.node, advance_of_some ho] at hself
  rw [hself]
  exact Function.update_self ..

/-- While the blocks of a chain `c` arrive, on the way to `d`, a node that settles
on nothing off `d` knows a chain between the two. By induction on the arrivals:
settling may take the node past `c`, but not off the way. -/
theorem Reached.between (hP : P.Laws near Inv) {j : ι} {c : List β}
    (h : Reached P near j c events) {d : List β} (hcd : c <+: d)
    (hsettle : ∀ f, .settle j f ∈ events → f <+: d) :
    ∃ m s, c <+: m ∧ m <+: d ∧ P.network events j m = some s := by
  induction h with
  | known h => exact ⟨_, _, List.prefix_rfl, hcd, h⟩
  | @block events c b k h htimely ih =>
      obtain ⟨m, s, hcm, hmd, hs⟩ := ih ((List.prefix_append c [b]).trans hcd)
        fun f hf => hsettle f (List.mem_append_left _ hf)
      rcases Nat.lt_or_ge c.length m.length with hlt | hge
      · -- it settled past the block already
        have hkeep : P.network (events ++ [.receive j c k b]) j m = some s :=
          network_keeps hP hs (by simp)
        refine ⟨m, s, List.prefix_of_prefix_length_le hcd hmd ?_, hmd, hkeep⟩
        rwa [List.length_append]
      · obtain rfl : c = m := hcm.eq_of_length_le hge
        obtain ⟨s', hs', -⟩ := network_receive hP hs htimely
        exact ⟨_, s', List.prefix_rfl, hcd, hs'⟩
  | @later events c e h ih =>
      obtain ⟨m, s, hcm, hmd, hs⟩ := ih hcd fun f hf => hsettle f (List.mem_append_left _ hf)
      by_cases hoff : ∃ f, e = .settle j f ∧ ¬ f <+: m
      · rcases hoff with ⟨f, rfl, hfm⟩
        have hfd := hsettle f (List.mem_append_right _ List.mem_cons_self)
        have hmf : m <+: f := (List.prefix_or_prefix_of_prefix hmd hfd).resolve_right hfm
        have hself := P.network_snoc_self events (.settle j f)
        rw [Event.node, advance_settle] at hself
        rcases hf : P.network events j f with - | u
        · rw [settleOn_of_unknown hf] at hself
          exact ⟨m, s, hcm, hmd, hself ▸ hs⟩
        · refine ⟨f, u, hcm.trans hmf, hfd, ?_⟩
          rw [hself, settleOn_keeps List.prefix_rfl, hf]
      · refine ⟨m, s, hcm, hmd, network_keeps hP hs ?_⟩
        intro f hf
        obtain rfl := List.mem_singleton.mp hf
        by_contra hfm
        exact hoff ⟨f, rfl, hfm⟩

/-- **What one node got in time every other can learn**: a chain whose blocks
reach a node is known there, unless it settled off the chain. -/
theorem Reached.exists_known (hP : P.Laws near Inv) {j : ι} {c : List β}
    (h : Reached P near j c events) (hsettle : ∀ f, .settle j f ∈ events → f <+: c) :
    ∃ s, P.network events j c = some s := by
  obtain ⟨m, s, hcm, hmc, hs⟩ := h.between hP List.prefix_rfl hsettle
  obtain rfl : c = m := hcm.eq_of_length_le hmc.length_le
  exact ⟨s, hs⟩

/-- **What was authored is accepted**, whenever it arrives and whatever happened
in between, by every node that knows the parent and reads a near clock. -/
theorem authored_received (hP : P.Laws near Inv) {before after : List (Event ι α κ β)}
    {i j : ι} {c : List β} {a : α} {b : β} {s' u : σ} {k : κ}
    (hauthored : P.outcome (P.network before i) (.author i c a : Event ι α κ β) = some (b, s'))
    (hknown : P.network (before ++ .author i c a :: after) j c = some u) (hnear : near a k) :
    P.network (before ++ .author i c a :: after ++ [.receive j c k b]) j (c ++ [b]) =
      some s' := by
  have htimely : Timely P near (before ++ .author i c a :: after) c b k :=
    ⟨.author i c a, ⟨before, after, s', rfl, rfl, hauthored⟩, hnear⟩
  obtain ⟨s₁, hs₁, hstate⟩ := network_receive hP hknown htimely
  obtain ⟨-, -, -, hstate', -⟩ := hP.outcome_spec (network_ok hP before i) hauthored
  rw [Event.parent, hstate] at hstate'
  rw [hs₁, hstate']

/-! ## Exchange -/

/-- After `events`, the nodes `i` and `j` exchange what they know: in `later` the
blocks of the chains that one knows reach the other, and neither gets a block that
is of no such chain. Other nodes do as they please. -/
structure Exchange (P : Protocol ι α κ σ β) (near : α → κ → Prop) (i j : ι)
    (events later : List (Event ι α κ β)) : Prop where
  handed : ∀ c s, P.network events i c = some s → Reached P near j c (events ++ later)
  handed_back : ∀ c s, P.network events j c = some s → Reached P near i c (events ++ later)
  only : ∀ e ∈ later, e.node = i ∨ e.node = j → (∃ f, e = .settle e.node f) ∨
    ∃ k b, e = .receive e.node e.parent k b ∧ ∃ s, P.network events i (e.parent ++ [b]) = some s ∨
      P.network events j (e.parent ++ [b]) = some s

theorem Exchange.known_iff (hP : P.Laws near Inv) {i j : ι} {later : List (Event ι α κ β)}
    (hex : Exchange P near i j events later) {c : List β}
    (hsettle : ∀ f, .settle j f ∈ events ++ later → f <+: c) {s : σ} :
    P.network (events ++ later) j c = some s ↔
      P.network events i c = some s ∨ P.network events j c = some s := by
  constructor
  · intro hs
    rcases network_new hs with hbefore | ⟨e, he, rfl, t, b, ho, rfl⟩
    · exact Or.inr hbefore
    · rcases hex.only e he (Or.inr rfl) with ⟨f, hf⟩ | ⟨k, b', hreceive, s', hs'⟩
      · rw [hf] at ho
        cases ho
      · obtain rfl : b' = b := by
          rw [hreceive] at ho
          obtain ⟨u, -, hmap⟩ := Option.bind_eq_some_iff.mp ho
          obtain ⟨u', -, hpair⟩ := Option.map_eq_some_iff.mp hmap
          exact congrArg Prod.fst hpair
        rcases hs' with hs' | hs'
        · exact Or.inl (state_unique hP hs' hs ▸ hs')
        · exact Or.inr (state_unique hP hs' hs ▸ hs')
  · rintro (hs | hs)
    · obtain ⟨s', hs'⟩ := (hex.handed c s hs).exists_known hP hsettle
      rw [hs', state_unique hP hs' hs]
    · exact network_keeps hP hs fun f hf => hsettle f (List.mem_append_right _ hf)

theorem Exchange.symm {i j : ι} {later : List (Event ι α κ β)}
    (hex : Exchange P near i j events later) : Exchange P near j i events later where
  handed := hex.handed_back
  handed_back := hex.handed
  only e he hnode := by
    rcases hex.only e he hnode.symm with hsettle | ⟨k, b, hreceive, s, hs⟩
    · exact Or.inl hsettle
    · exact Or.inr ⟨k, b, hreceive, s, hs.symm⟩

/-- **Nodes that exchange their blocks know the same chains**, with the same
states, off which neither has settled. -/
theorem exchange_agree (hP : P.Laws near Inv) {i j : ι} {later : List (Event ι α κ β)}
    (hex : Exchange P near i j events later) {c : List β}
    (hi : ∀ f, .settle i f ∈ events ++ later → f <+: c)
    (hj : ∀ f, .settle j f ∈ events ++ later → f <+: c) :
    P.network (events ++ later) i c = P.network (events ++ later) j c := by
  ext s
  rw [hex.known_iff hP hj, hex.symm.known_iff hP hi, or_comm]

end Network

end Framework.Gossip
