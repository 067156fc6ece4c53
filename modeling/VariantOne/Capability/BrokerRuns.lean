import VariantOne.Capability.BrokerSteps
import VariantOne.Lib.OnceSlot

/-!
# Runs of the broker

What the ledger remembers of an identity is told by the events of the run: `slotHistory` picks those that
are about one identity, and in every run they move a slot that begins work once while it remembers the
outcome (`Lib/OnceSlot`).  The ledger's entry agrees with the slot (`Holds`), which is the invariant the
runs carry; that an outcome is forgotten no earlier than the capacity says is the ledger's eviction
(`Lib/Retention`).

* `handlers_apart`: handlers of one identity are started apart.
* `repeat_answered`: an invocation of an identity with a remembered receipt is answered with it.
* `receipts_honest`: a stored receipt is honest about the effect of its invocation.
-/

namespace VariantOne
namespace Capability

variable {β : Type} {B : CapabilityBroker} {s s' : BrokerState β} {op : BrokerOp β}
  {event : BrokerEvent β} {k : String}

abbrev BrokerHistory (β : Type) := List (BrokerOp β × BrokerEvent β)

/-! ## 1.  How invocations change -/

/-- Invocations keep their call, a started handler stays started, and what has ended stays as it is. -/
def Evolves (s s' : BrokerState β) : Prop :=
  ∀ j p, s.procs j = some p → ∃ p', s'.procs j = some p' ∧ p'.call = p.call ∧
    (p.started = true → p'.started = true) ∧ (p.active = false → p' = p)

theorem Evolves.of_fresh {i : Nat} {p : Process β} (fresh : s.procs i = none)
    (procs : s'.procs = (s.put i p).procs) : Evolves s s' := by
  intro j q hq
  have hne : j ≠ i := by
    rintro rfl
    exact absurd (fresh.symm.trans hq) (by simp)
  refine ⟨q, ?_, rfl, id, fun _ => rfl⟩
  rw [procs, s.put_of_ne p hne]
  exact hq

theorem Evolves.of_here {i : Nat} {p p' : Process β} (here : s.procs i = some p)
    (procs : s'.procs = (s.put i p').procs) (hcall : p'.call = p.call)
    (hstarted : p.started = true → p'.started = true) (hactive : p.active = true) : Evolves s s' := by
  intro j q hq
  by_cases hji : j = i
  · subst hji
    obtain rfl : p = q := Option.some.inj (here.symm.trans hq)
    refine ⟨p', ?_, hcall, hstarted, fun h => absurd (h.symm.trans hactive) (by simp)⟩
    rw [procs]
    exact s.put_self j p'
  · refine ⟨q, ?_, rfl, id, fun _ => rfl⟩
    rw [procs, s.put_of_ne p' hji]
    exact hq

/-- **Every step lets invocations evolve.** -/
theorem Stepped.evolves (hsound : ∀ i p, s.procs i = some p → p.Sound B)
    (h : Stepped B s op event s') : Evolves s s' := by
  cases h with
  | rest _ _ procs => exact fun j p hp => ⟨p, procs ▸ hp, rfl, id, fun _ => rfl⟩
  | refused fresh _ procs => exact .of_fresh fresh procs
  | answered fresh _ _ procs => exact .of_fresh fresh procs
  | admitted fresh _ _ procs => exact .of_fresh fresh procs
  | advanced here goes _ procs =>
      have hadv := advance_spec (hsound _ _ here) goes
      refine .of_here here procs hadv.call (fun hs => ?_) hadv.active
      rcases hadv.event with ⟨-, hsame⟩ | ⟨-, hnot, -⟩
      · exact hsame.trans hs
      · exact absurd (hnot.symm.trans hs) (by simp)
  | interrupted here phase _ procs => exact .of_here here procs rfl id (active_of_phase phase (by simp))
  | stored here phase _ procs => exact .of_here here procs rfl id (active_of_phase phase (by simp))
  | recovered here phase _ procs => exact .of_here here procs rfl id (active_of_phase phase (by simp))
  | gaveUp here phase _ procs => exact .of_here here procs rfl id (active_of_phase phase (by simp))

/-- **Every step keeps every invocation sound.** -/
theorem Stepped.sound (hsound : ∀ i p, s.procs i = some p → p.Sound B)
    (h : Stepped B s op event s') : ∀ i p, s'.procs i = some p → p.Sound B := by
  have hput : ∀ {i : Nat} {p' : Process β}, s'.procs = (s.put i p').procs → p'.Sound B →
      ∀ j q, s'.procs j = some q → q.Sound B := by
    intro i p' procs hp' j q hq
    rw [procs] at hq
    by_cases hji : j = i
    · subst hji
      rw [s.put_self] at hq
      exact Option.some.inj hq ▸ hp'
    · rw [s.put_of_ne p' hji] at hq
      exact hsound j q hq
  cases h with
  | rest _ _ procs => exact fun j p hp => hsound j p (procs ▸ hp)
  | refused _ _ procs => exact hput procs trivial
  | answered _ _ _ procs => exact hput procs trivial
  | admitted _ _ _ procs => exact hput procs rfl
  | advanced here goes _ procs => exact hput procs (advance_spec (hsound _ _ here) goes).sound
  | interrupted here phase _ procs =>
      have hp := hsound _ _ here
      unfold Process.Sound at hp
      rw [phase] at hp
      exact hput procs hp.2
  | stored _ _ _ procs => exact hput procs trivial
  | recovered _ _ _ procs => exact hput procs trivial
  | gaveUp _ _ _ procs => exact hput procs trivial

/-! ## 2.  Owners -/

/-- An invocation on its way owns the entry of its identity. -/
def BrokerState.Owned (s : BrokerState β) : Prop :=
  ∀ i p, s.procs i = some p → p.active = true →
    Dict.get? s.ledger p.call.key = some (.admitted p.call.fingerprint i)

/-- An identity has one owner. -/
theorem BrokerState.Owned.unique (h : s.Owned) {i j : Nat} {p q : Process β} (hi : s.procs i = some p)
    (hj : s.procs j = some q) (hp : p.active = true) (hq : q.active = true)
    (hkey : q.call.key = p.call.key) : j = i := by
  have hentry := h j q hj hq
  rw [hkey, h i p hi hp] at hentry
  injection Option.some.inj hentry with _ howner
  exact howner.symm

/-- A step at one invocation that leaves the ledger alone. -/
theorem BrokerState.Owned.put (h : s.Owned) {i : Nat} {p' : Process β} (ledger : s'.ledger = s.ledger)
    (procs : s'.procs = (s.put i p').procs)
    (hp' : p'.active = true →
      Dict.get? s.ledger p'.call.key = some (.admitted p'.call.fingerprint i)) : s'.Owned := by
  intro j q hq hactive
  rw [ledger]
  rw [procs] at hq
  by_cases hji : j = i
  · subst hji
    rw [s.put_self] at hq
    obtain rfl := Option.some.inj hq
    exact hp' hactive
  · rw [s.put_of_ne p' hji] at hq
    exact h j q hq hactive

/-- The entry of an owner outlives the settlement of another identity. -/
theorem BrokerState.Owned.store (h : s.Owned) (hwf : Dict.WF s.ledger) {i : Nat} {p p' : Process β}
    {r : CapabilityReceipt β} (here : s.procs i = some p) (hactive : p.active = true)
    (ledger : s'.ledger = storeTerminal B.dedupeCapacity s.ledger p.call.key p.call.fingerprint r)
    (procs : s'.procs = (s.put i p').procs) (hdone : p'.active = false) : s'.Owned := by
  intro j q hq hqactive
  rw [procs] at hq
  by_cases hji : j = i
  · subst hji
    rw [s.put_self] at hq
    rw [← Option.some.inj hq, hdone] at hqactive
    exact absurd hqactive (by simp)
  · rw [s.put_of_ne p' hji] at hq
    have hkey : q.call.key ≠ p.call.key := fun hk => hji (h.unique here hq hactive hqactive hk)
    rw [ledger]
    exact Retention.get?_store_pending hwf hkey (h j q hq hqactive) rfl

/-- **Every step keeps the owners.** -/
theorem Stepped.owned (hsound : ∀ i p, s.procs i = some p → p.Sound B) (hwf : Dict.WF s.ledger)
    (howned : s.Owned) (h : Stepped B s op event s') : s'.Owned := by
  cases h with
  | rest _ ledger procs => exact fun j p hp hactive => ledger ▸ howned j p (procs ▸ hp) hactive
  | refused _ ledger procs =>
      exact howned.put ledger procs fun h => absurd (show false = true from h) (by simp)
  | answered _ _ ledger procs =>
      exact howned.put ledger procs fun h => absurd (show false = true from h) (by simp)
  | @admitted i c _ _ absent ledger procs =>
      intro j q hq hactive
      rw [ledger, Dict.get?_append]
      rw [procs] at hq
      by_cases hji : j = i
      · subst hji
        rw [s.put_self] at hq
        obtain rfl := Option.some.inj hq
        show (Dict.get? s.ledger c.key).or _ = _
        rw [absent, Option.none_or]
        exact if_pos rfl
      · rw [s.put_of_ne _ hji] at hq
        rw [howned j q hq hactive]
        rfl
  | advanced here goes ledger procs =>
      have hadv := advance_spec (hsound _ _ here) goes
      refine howned.put ledger procs fun _ => ?_
      rw [hadv.call]
      exact howned _ _ here hadv.active
  | interrupted here phase ledger procs =>
      have hentry := howned _ _ here (active_of_phase phase (by simp))
      exact howned.put ledger procs fun _ => hentry
  | stored here phase ledger procs =>
      exact howned.store hwf here (active_of_phase phase (by simp)) ledger procs rfl
  | recovered here phase ledger procs =>
      exact howned.store hwf here (active_of_phase phase (by simp)) ledger procs rfl
  | gaveUp here phase ledger procs =>
      exact howned.put ledger procs fun h => absurd (show false = true from h) (by simp)

/-- Every step keeps one entry for an identity. -/
theorem Stepped.wf (hwf : Dict.WF s.ledger) (h : Stepped B s op event s') : Dict.WF s'.ledger := by
  cases h with
  | rest _ ledger _ => exact ledger ▸ hwf
  | refused _ ledger _ => exact ledger ▸ hwf
  | answered _ _ ledger _ => exact ledger ▸ hwf
  | admitted _ absent ledger _ =>
      rw [ledger]
      unfold Dict.WF
      rw [Dict.keys_append]
      refine List.Nodup.append hwf (by simp) fun x hx hk => ?_
      obtain rfl : x = _ := by simpa using hk
      exact Dict.get?_eq_none_iff.mp absent hx
  | advanced _ _ ledger _ => exact ledger ▸ hwf
  | interrupted _ _ ledger _ => exact ledger ▸ hwf
  | stored _ _ ledger _ => exact ledger ▸ Retention.wf_store hwf
  | recovered _ _ ledger _ => exact ledger ▸ Retention.wf_store hwf
  | gaveUp _ _ ledger _ => exact ledger ▸ hwf

/-! ## 3.  Slots -/

/-- What an event is to the slot of an identity. -/
def BrokerEvent.forSlot (k : String) :
    BrokerEvent β → Option (OnceSlot.Event Nat (CapabilityReceipt β))
  | .started i k' => if k' = k then some (.begun i) else none
  | .stored i k' r => some (if k' = k then .settled i r else .elsewhere)
  | .quiet | .admitted _ | .answered .. | .raised .. | .rejected _ => none

/-- The history of the slot of an identity. -/
def slotHistory (k : String) (h : BrokerHistory β) : List (OnceSlot.Event Nat (CapabilityReceipt β)) :=
  h.filterMap fun e => e.2.forSlot k

/-- Work may begin: the identity is absent, or admitted by an invocation whose handler was not
started. -/
def BrokerState.Vacant (s : BrokerState β) (k : String) : Prop :=
  Dict.get? s.ledger k = none ∨ ∃ i p, s.procs i = some p ∧ p.call.key = k ∧ p.started = false ∧
    Dict.get? s.ledger k = some (.admitted p.call.fingerprint i)

/-- The ledger has a receipt of an invocation, with as many settled entries behind it at most. -/
def BrokerState.Remembers (s : BrokerState β) (k fingerprint : String) (r : CapabilityReceipt β)
    (age : Nat) : Prop :=
  Retention.Within LedgerEntry.isTerminal s.ledger k (.terminal fingerprint r) age

/-- **The ledger agrees with the slot of an identity.** -/
def BrokerState.Holds (capacity : Nat) (s : BrokerState β) (k : String) :
    OnceSlot.Slot Nat (CapabilityReceipt β) → Prop
  | .free => s.Vacant k
  | .taken i => ∃ p, s.procs i = some p ∧ p.call.key = k ∧ p.started = true ∧
      Dict.get? s.ledger k = some (.admitted p.call.fingerprint i)
  | .settled i r age => ∃ p, s.procs i = some p ∧ p.call.key = k ∧
      (s.Remembers k p.call.fingerprint r age ∨ s.Vacant k ∧ capacity ≤ age)

/-- The invocations of an identity keep what a slot knows of them. -/
def KeepsAt (k : String) (s s' : BrokerState β) : Prop :=
  ∀ j p, s.procs j = some p → p.call.key = k →
    ∃ p', s'.procs j = some p' ∧ p'.call = p.call ∧ p'.started = p.started

theorem BrokerState.Vacant.keep (h : s.Vacant k) (hkeep : KeepsAt k s s')
    (hledger : Dict.get? s'.ledger k = Dict.get? s.ledger k) : s'.Vacant k := by
  rcases h with h | ⟨i, p, hp, hkey, hstarted, hentry⟩
  · exact .inl (hledger.trans h)
  · obtain ⟨p', hp', hcall, hsame⟩ := hkeep i p hp hkey
    refine .inr ⟨i, p', hp', by rw [hcall]; exact hkey, hsame.trans hstarted, ?_⟩
    rw [hcall, hledger]
    exact hentry

/-- A step that keeps the entry of an identity keeps its slot. -/
theorem BrokerState.Holds.keep {capacity : Nat} {c : OnceSlot.Slot Nat (CapabilityReceipt β)}
    (h : s.Holds capacity k c) (hkeep : KeepsAt k s s')
    (hledger : Dict.get? s'.ledger k = Dict.get? s.ledger k)
    (hremembers : ∀ fingerprint r age, s.Remembers k fingerprint r age →
      s'.Remembers k fingerprint r age) : s'.Holds capacity k c := by
  cases c with
  | free => exact BrokerState.Vacant.keep (s := s) h hkeep hledger
  | taken i =>
      obtain ⟨p, hp, hkey, hstarted, hentry⟩ := h
      obtain ⟨p', hp', hcall, hsame⟩ := hkeep i p hp hkey
      refine ⟨p', hp', by rw [hcall]; exact hkey, hsame.trans hstarted, ?_⟩
      rw [hcall, hledger]
      exact hentry
  | settled i r age =>
      obtain ⟨p, hp, hkey, hcase⟩ := h
      obtain ⟨p', hp', hcall, -⟩ := hkeep i p hp hkey
      refine ⟨p', hp', by rw [hcall]; exact hkey, ?_⟩
      rw [hcall]
      rcases hcase with hr | ⟨hvacant, hage⟩
      · exact .inl (hremembers _ _ _ hr)
      · exact .inr ⟨hvacant.keep hkeep hledger, hage⟩

theorem BrokerState.Holds.same_ledger {capacity : Nat} {c : OnceSlot.Slot Nat (CapabilityReceipt β)}
    (h : s.Holds capacity k c) (hkeep : KeepsAt k s s') (hledger : s'.ledger = s.ledger) :
    s'.Holds capacity k c := by
  refine h.keep hkeep (by rw [hledger]) fun fingerprint r age hr => ?_
  unfold BrokerState.Remembers
  rw [hledger]
  exact hr

theorem KeepsAt.of_fresh {i : Nat} {p : Process β} (fresh : s.procs i = none)
    (procs : s'.procs = (s.put i p).procs) : KeepsAt k s s' := by
  intro j q hq _
  have hne : j ≠ i := by
    rintro rfl
    exact absurd (fresh.symm.trans hq) (by simp)
  refine ⟨q, ?_, rfl, rfl⟩
  rw [procs, s.put_of_ne p hne]
  exact hq

/-- A step of an invocation that starts no handler keeps every slot. -/
theorem KeepsAt.of_here {i : Nat} {p p' : Process β} (here : s.procs i = some p)
    (procs : s'.procs = (s.put i p').procs) (hcall : p'.call = p.call)
    (hstarted : p.call.key = k → p'.started = p.started) : KeepsAt k s s' := by
  intro j q hq hkey
  by_cases hji : j = i
  · subst hji
    obtain rfl : p = q := Option.some.inj (here.symm.trans hq)
    refine ⟨p', ?_, hcall, hstarted hkey⟩
    rw [procs]
    exact s.put_self j p'
  · refine ⟨q, ?_, rfl, rfl⟩
    rw [procs, s.put_of_ne p' hji]
    exact hq

/-- An outcome that is remembered is the entry of the identity. -/
theorem BrokerState.Remembers.get? {fingerprint : String} {r : CapabilityReceipt β} {age : Nat}
    (hwf : Dict.WF s.ledger) (h : s.Remembers k fingerprint r age) :
    Dict.get? s.ledger k = some (.terminal fingerprint r) :=
  Retention.Within.get? hwf h

/-! ## 4.  Steps of a slot -/

/-- A slot after an event, which may have nothing to do with it. -/
def SlotStep (capacity : Nat) (c : OnceSlot.Slot Nat (CapabilityReceipt β)) :
    Option (OnceSlot.Event Nat (CapabilityReceipt β)) → OnceSlot.Slot Nat (CapabilityReceipt β) → Prop
  | none, c' => c' = c
  | some e, c' => OnceSlot.Next capacity c e c'

variable {capacity : Nat} {c : OnceSlot.Slot Nat (CapabilityReceipt β)}

/-- An admission finds a vacant slot and leaves it vacant. -/
theorem BrokerState.Holds.admitted {i : Nat} {call : Invocation} (hwf : Dict.WF s.ledger)
    (h : s.Holds capacity k c) (fresh : s.procs i = none) (absent : Dict.get? s.ledger call.key = none)
    (ledger : s'.ledger = s.ledger ++ [(call.key, .admitted call.fingerprint i)])
    (procs : s'.procs = (s.put i (call.process .admitted)).procs) : s'.Holds capacity k c := by
  have hkeep : KeepsAt k s s' := .of_fresh fresh procs
  by_cases hk : k = call.key
  · subst hk
    have hvacant : s'.Vacant call.key := by
      refine .inr ⟨i, call.process .admitted, ?_, rfl, rfl, ?_⟩
      · rw [procs]
        exact s.put_self i _
      · rw [ledger, Dict.get?_append, absent, Option.none_or]
        exact if_pos rfl
    cases c with
    | free => exact hvacant
    | taken j =>
        obtain ⟨p, -, -, -, hentry⟩ := h
        exact absurd (absent.symm.trans hentry) (by simp)
    | settled j r age =>
        obtain ⟨p, hp, hkey, hcase⟩ := h
        obtain ⟨p', hp', hcall, -⟩ := hkeep j p hp hkey
        refine ⟨p', hp', by rw [hcall]; exact hkey, ?_⟩
        rcases hcase with hr | ⟨-, hage⟩
        · exact absurd (absent.symm.trans (hr.get? hwf)) (by simp)
        · exact .inr ⟨hvacant, hage⟩
  · refine h.keep hkeep ?_ fun fingerprint r age hr => ?_
    · rw [ledger, Dict.get?_append, Dict.get?_cons, if_neg (Ne.symm hk), Dict.get?_nil, Option.or_none]
    · unfold BrokerState.Remembers
      rw [ledger]
      exact Retention.Within.append hr rfl

/-- The handler of an owner is started: the slot was vacant and is taken. -/
theorem BrokerState.Holds.started {i : Nat} {p p' : Process β} (hwf : Dict.WF s.ledger)
    (h : s.Holds capacity p.call.key c) (here : s.procs i = some p)
    (hentry : Dict.get? s.ledger p.call.key = some (.admitted p.call.fingerprint i))
    (hnot : p.started = false) (hcall : p'.call = p.call) (hstarted : p'.started = true)
    (ledger : s'.ledger = s.ledger) (procs : s'.procs = (s.put i p').procs) :
    OnceSlot.Next capacity c (.begun i) (.taken i) ∧ s'.Holds capacity p.call.key (.taken i) := by
  constructor
  · cases c with
    | free => exact .begin_free i
    | taken j =>
        obtain ⟨q, hq, -, hqstarted, hqentry⟩ := h
        injection Option.some.inj (hentry.symm.trans hqentry) with _ howner
        subst howner
        rw [Option.some.inj (here.symm.trans hq), hqstarted] at hnot
        exact absurd hnot (by simp)
    | settled j r age =>
        obtain ⟨q, -, -, hr | ⟨-, hage⟩⟩ := h
        · exact absurd (hentry.symm.trans (hr.get? hwf)) (by simp)
        · exact .begin_forgotten i hage
  · refine ⟨p', ?_, by rw [hcall], hstarted, ?_⟩
    · rw [procs]
      exact s.put_self i p'
    · rw [ledger, hcall]
      exact hentry

/-- The owner of an identity stores its receipt: its slot is settled. -/
theorem BrokerState.Holds.settled {i : Nat} {p p' : Process β} {r : CapabilityReceipt β}
    (hwf : Dict.WF s.ledger) (h : s.Holds capacity p.call.key c)
    (hentry : Dict.get? s.ledger p.call.key = some (.admitted p.call.fingerprint i))
    (hcall : p'.call = p.call) (hcapacity : 0 < capacity)
    (ledger : s'.ledger = storeTerminal capacity s.ledger p.call.key p.call.fingerprint r)
    (procs : s'.procs = (s.put i p').procs) :
    OnceSlot.Next capacity c (.settled i r) (.settled i r 0) ∧
      s'.Holds capacity p.call.key (.settled i r 0) := by
  constructor
  · cases c with
    | free => exact .settle_free i r
    | taken j =>
        obtain ⟨q, -, -, -, hqentry⟩ := h
        injection Option.some.inj (hentry.symm.trans hqentry) with _ howner
        subst howner
        exact .settle i r
    | settled j r' age =>
        obtain ⟨q, -, -, hr | ⟨-, hage⟩⟩ := h
        · exact absurd (hentry.symm.trans (hr.get? hwf)) (by simp)
        · exact .settle_forgotten i r hage
  · refine ⟨p', ?_, by rw [hcall], .inl ?_⟩
    · rw [procs]
      exact s.put_self i p'
    · unfold BrokerState.Remembers
      rw [ledger, hcall]
      exact Retention.store_self hwf rfl hcapacity

/-- A vacant slot stays vacant when another identity is settled. -/
theorem BrokerState.Vacant.elsewhere {k' fingerprint : String} {r : CapabilityReceipt β}
    (hwf : Dict.WF s.ledger) (hne : k ≠ k') (h : s.Vacant k) (hkeep : KeepsAt k s s')
    (ledger : s'.ledger = storeTerminal capacity s.ledger k' fingerprint r) : s'.Vacant k := by
  refine h.keep hkeep ?_
  rw [ledger]
  rcases h with h | ⟨i, p, -, -, -, hentry⟩
  · exact (Retention.get?_store_none hne h).trans h.symm
  · exact (Retention.get?_store_pending hwf hne hentry rfl).trans hentry.symm

/-- Another identity is settled: an outcome ages, or it is forgotten. -/
theorem BrokerState.Holds.elsewhere {k' fingerprint : String} {r : CapabilityReceipt β}
    (hwf : Dict.WF s.ledger) (hne : k ≠ k') (h : s.Holds capacity k c) (hkeep : KeepsAt k s s')
    (ledger : s'.ledger = storeTerminal capacity s.ledger k' fingerprint r) :
    ∃ c', OnceSlot.Next capacity c .elsewhere c' ∧ s'.Holds capacity k c' := by
  cases c with
  | free => exact ⟨.free, .elsewhere_free, BrokerState.Vacant.elsewhere (s := s) hwf hne h hkeep ledger⟩
  | taken i =>
      obtain ⟨p, hp, hkey, hstarted, hentry⟩ := h
      obtain ⟨p', hp', hcall, hsame⟩ := hkeep i p hp hkey
      refine ⟨.taken i, .elsewhere_taken i, p', hp', by rw [hcall]; exact hkey, hsame.trans hstarted, ?_⟩
      rw [hcall, ledger]
      exact Retention.get?_store_pending hwf hne hentry rfl
  | settled i r' age =>
      obtain ⟨p, hp, hkey, hcase⟩ := h
      obtain ⟨p', hp', hcall, -⟩ := hkeep i p hp hkey
      refine ⟨.settled i r' (age + 1), .elsewhere_settled i r' age, p', hp', by rw [hcall]; exact hkey, ?_⟩
      rw [hcall]
      rcases hcase with hr | ⟨hvacant, hage⟩
      · unfold BrokerState.Remembers
        rw [ledger]
        refine (Retention.store_of_ne hwf hne hr rfl).imp_right fun hforgotten => ?_
        exact ⟨.inl (ledger ▸ hforgotten.1), hforgotten.2⟩
      · exact .inr ⟨hvacant.elsewhere hwf hne hkeep ledger, hage.trans (Nat.le_succ age)⟩

theorem forSlot_idle (h : event.idle = true) : event.forSlot k = none := by
  cases event <;> first | rfl | exact absurd h (by simp [BrokerEvent.idle])

theorem forSlot_started (k k' : String) (i : Nat) :
    (BrokerEvent.started i k' : BrokerEvent β).forSlot k =
      if k' = k then some (.begun i) else none := rfl

theorem forSlot_stored (k k' : String) (i : Nat) (r : CapabilityReceipt β) :
    (BrokerEvent.stored i k' r).forSlot k = some (if k' = k then .settled i r else .elsewhere) := rfl

/-- The end of an invocation moves every slot: its own is settled, the others age. -/
theorem slot_stored {i : Nat} {p p' : Process β} {r : CapabilityReceipt β} (hwf : Dict.WF s.ledger)
    (howned : s.Owned) (h : s.Holds B.dedupeCapacity k c) (here : s.procs i = some p)
    (hactive : p.active = true)
    (ledger : s'.ledger = storeTerminal B.dedupeCapacity s.ledger p.call.key p.call.fingerprint r)
    (procs : s'.procs = (s.put i p').procs) (hcall : p'.call = p.call)
    (hstarted : p'.started = p.started) :
    ∃ c', SlotStep B.dedupeCapacity c ((BrokerEvent.stored i p.call.key r).forSlot k) c' ∧
      s'.Holds B.dedupeCapacity k c' := by
  by_cases hk : p.call.key = k
  · subst hk
    have hpositive : 0 < B.dedupeCapacity := Nat.lt_of_lt_of_le (by decide) (Nat.le_max_left 128 _)
    obtain ⟨hnext, hholds⟩ := h.settled hwf (howned i p here hactive) hcall hpositive ledger procs
    refine ⟨.settled i r 0, ?_, hholds⟩
    rw [forSlot_stored, if_pos rfl]
    exact hnext
  · obtain ⟨c', hnext, hholds⟩ :=
      h.elsewhere hwf (Ne.symm hk) (.of_here here procs hcall fun _ => hstarted) ledger
    refine ⟨c', ?_, hholds⟩
    rw [forSlot_stored, if_neg hk]
    exact hnext

/-- **Every step moves every slot** as its event says. -/
theorem Stepped.slot (hsound : ∀ i p, s.procs i = some p → p.Sound B) (hwf : Dict.WF s.ledger)
    (howned : s.Owned) (hholds : s.Holds B.dedupeCapacity k c) (h : Stepped B s op event s') :
    ∃ c', SlotStep B.dedupeCapacity c (event.forSlot k) c' ∧ s'.Holds B.dedupeCapacity k c' := by
  cases h with
  | rest hidle ledger procs =>
      refine ⟨c, by rw [forSlot_idle hidle]; rfl, hholds.same_ledger ?_ ledger⟩
      exact fun j p hp _ => ⟨p, procs ▸ hp, rfl, rfl⟩
  | refused fresh ledger procs =>
      exact ⟨c, rfl, hholds.same_ledger (.of_fresh fresh procs) ledger⟩
  | answered fresh _ ledger procs =>
      exact ⟨c, rfl, hholds.same_ledger (.of_fresh fresh procs) ledger⟩
  | admitted fresh absent ledger procs =>
      exact ⟨c, rfl, hholds.admitted hwf fresh absent ledger procs⟩
  | @advanced i p p' _ _ here goes ledger procs =>
      have hadv := advance_spec (hsound _ _ here) goes
      rcases hadv.event with ⟨rfl, hsame⟩ | ⟨rfl, hnot, hstarted⟩
      · exact ⟨c, rfl, hholds.same_ledger (.of_here here procs hadv.call fun _ => hsame) ledger⟩
      · by_cases hk : p.call.key = k
        · subst hk
          obtain ⟨hnext, hholds'⟩ := hholds.started hwf here (howned i p here hadv.active) hnot
            hadv.call hstarted ledger procs
          refine ⟨.taken i, ?_, hholds'⟩
          rw [forSlot_started, if_pos rfl]
          exact hnext
        · refine ⟨c, ?_, hholds.same_ledger (.of_here here procs hadv.call fun h => absurd h hk) ledger⟩
          rw [forSlot_started, if_neg hk]
          rfl
  | interrupted here _ ledger procs =>
      exact ⟨c, rfl, hholds.same_ledger (.of_here here procs rfl fun _ => rfl) ledger⟩
  | stored here phase ledger procs =>
      exact slot_stored hwf howned hholds here (active_of_phase phase (by simp)) ledger procs rfl rfl
  | recovered here phase ledger procs =>
      exact slot_stored hwf howned hholds here (active_of_phase phase (by simp)) ledger procs rfl rfl
  | gaveUp here _ ledger procs =>
      exact ⟨c, rfl, hholds.same_ledger (.of_here here procs rfl fun _ => rfl) ledger⟩

/-! ## 5.  Runs -/

/-- What is known in a state of an event of the past. -/
def BrokerState.Records (B : CapabilityBroker) (s : BrokerState β) : BrokerEvent β → Prop
  | .started i k => ∃ p, s.procs i = some p ∧ p.call.key = k ∧ p.started = true
  | .stored i k r => ∃ p, s.procs i = some p ∧ p.call.key = k ∧ p.active = false ∧ Honest B p r
  | .quiet | .admitted _ | .answered .. | .raised .. | .rejected _ => True

/-- **The invariant of the runs.** -/
structure BrokerInvariant (B : CapabilityBroker) (h : BrokerHistory β) (s : BrokerState β) : Prop where
  wf : Dict.WF s.ledger
  sound : ∀ i p, s.procs i = some p → p.Sound B
  owned : s.Owned
  records : ∀ e ∈ h, s.Records B e.2
  begun : ∀ i p, s.procs i = some p → p.started = true → ∃ op, (op, .started i p.call.key) ∈ h
  slots : ∀ k, ∃ c, OnceSlot.Trace B.dedupeCapacity (slotHistory k h) c ∧ s.Holds B.dedupeCapacity k c

theorem BrokerState.Records.evolve {e : BrokerEvent β} (h : s.Records B e) (hevolves : Evolves s s') :
    s'.Records B e := by
  cases e with
  | started i k =>
      obtain ⟨p, hp, hkey, hstarted⟩ := h
      obtain ⟨p', hp', hcall, hkept, -⟩ := hevolves i p hp
      exact ⟨p', hp', by rw [hcall]; exact hkey, hkept hstarted⟩
  | stored i k r =>
      obtain ⟨p, hp, hkey, hdone, hhonest⟩ := h
      obtain ⟨p', hp', -, -, hsame⟩ := hevolves i p hp
      obtain rfl := hsame hdone
      exact ⟨p', hp', hkey, hdone, hhonest⟩
  | quiet | admitted | answered | raised | rejected => trivial

/-- The event of a step is recorded by the state it leads to. -/
theorem Stepped.records (hsound : ∀ i p, s.procs i = some p → p.Sound B)
    (h : Stepped B s op event s') : s'.Records B event := by
  cases h with
  | rest hidle _ _ => cases event <;> trivial
  | refused _ _ _ => trivial
  | answered _ _ _ _ => trivial
  | admitted _ _ _ _ => trivial
  | @advanced i p p' _ _ here goes _ procs =>
      have hadv := advance_spec (hsound _ _ here) goes
      rcases hadv.event with ⟨rfl, -⟩ | ⟨rfl, -, hstarted⟩
      · trivial
      · refine ⟨p', ?_, by rw [hadv.call], hstarted⟩
        rw [procs]
        exact s.put_self i p'
  | interrupted _ _ _ _ => trivial
  | stored here phase _ procs =>
      have hp := hsound _ _ here
      unfold Process.Sound at hp
      rw [phase] at hp
      have hend := (congrFun procs _).trans (s.put_self _ _)
      exact ⟨_, hend, rfl, rfl, (hp.1.afterSinks _).phase _⟩
  | recovered here phase _ procs =>
      have hp := hsound _ _ here
      unfold Process.Sound at hp
      rw [phase] at hp
      have hend := (congrFun procs _).trans (s.put_self _ _)
      exact ⟨_, hend, rfl, rfl, ((honest_interrupted hp _ _).afterSinks _).phase _⟩
  | gaveUp _ _ _ _ => trivial

/-- A handler that was started was started before the step, or by it. -/
theorem Stepped.begun (hsound : ∀ i p, s.procs i = some p → p.Sound B)
    (h : Stepped B s op event s') {j : Nat} {q : Process β} (hq : s'.procs j = some q)
    (hstarted : q.started = true) :
    (∃ p, s.procs j = some p ∧ p.started = true ∧ p.call = q.call) ∨ event = .started j q.call.key := by
  have hput : ∀ {i : Nat} {p' : Process β}, s'.procs = (s.put i p').procs →
      (p'.started = true → (∃ p, s.procs i = some p ∧ p.started = true ∧ p.call = p'.call) ∨
        event = .started i p'.call.key) →
      (∃ p, s.procs j = some p ∧ p.started = true ∧ p.call = q.call) ∨ event = .started j q.call.key := by
    intro i p' procs hp'
    rw [procs] at hq
    by_cases hji : j = i
    · subst hji
      rw [s.put_self] at hq
      obtain rfl := Option.some.inj hq
      exact hp' hstarted
    · rw [s.put_of_ne p' hji] at hq
      exact .inl ⟨q, hq, hstarted, rfl⟩
  cases h with
  | rest _ _ procs => exact .inl ⟨q, procs ▸ hq, hstarted, rfl⟩
  | refused _ _ procs => exact hput procs fun h => absurd (show false = true from h) (by simp)
  | answered _ _ _ procs => exact hput procs fun h => absurd (show false = true from h) (by simp)
  | admitted _ _ _ procs => exact hput procs fun h => absurd (show false = true from h) (by simp)
  | @advanced i p p' _ _ here goes _ procs =>
      have hadv := advance_spec (hsound _ _ here) goes
      refine hput procs fun hs => ?_
      rcases hadv.event with ⟨-, hsame⟩ | ⟨rfl, -, -⟩
      · exact .inl ⟨p, here, hsame.symm.trans hs, hadv.call.symm⟩
      · exact .inr (by rw [hadv.call])
  | interrupted here _ _ procs => exact hput procs fun h => .inl ⟨_, here, h, rfl⟩
  | stored here _ _ procs => exact hput procs fun h => .inl ⟨_, here, h, rfl⟩
  | recovered here _ _ procs => exact hput procs fun h => .inl ⟨_, here, h, rfl⟩
  | gaveUp here _ _ procs => exact hput procs fun h => .inl ⟨_, here, h, rfl⟩

/-- What an event adds to the history of a slot. -/
theorem slotHistory_cons (k : String) (op : BrokerOp β) (event : BrokerEvent β) (h : BrokerHistory β) :
    slotHistory k ((op, event) :: h) = (event.forSlot k).toList ++ slotHistory k h := by
  unfold slotHistory
  rw [List.filterMap_cons]
  cases BrokerEvent.forSlot k event <;> rfl

/-- **Every step keeps the invariant.** -/
theorem BrokerInvariant.step {h : BrokerHistory β} (hinv : BrokerInvariant B h s)
    (hstep : B.step op s = (event, s')) : BrokerInvariant B ((op, event) :: h) s' := by
  have hstepped := step_stepped hstep
  have hevolves := hstepped.evolves hinv.sound
  refine
    { wf := hstepped.wf hinv.wf
      sound := hstepped.sound hinv.sound
      owned := hstepped.owned hinv.sound hinv.wf hinv.owned
      records := fun e he => ?_
      begun := fun i p hp hstarted => ?_
      slots := fun k => ?_ }
  · rcases List.mem_cons.mp he with rfl | he
    · exact hstepped.records hinv.sound
    · exact (hinv.records e he).evolve hevolves
  · rcases hstepped.begun hinv.sound hp hstarted with ⟨q, hq, hqstarted, hcall⟩ | rfl
    · obtain ⟨op', hmem⟩ := hinv.begun i q hq hqstarted
      exact ⟨op', List.mem_cons_of_mem _ (hcall ▸ hmem)⟩
    · exact ⟨op, by simp⟩
  · obtain ⟨c, htrace, hholds⟩ := hinv.slots k
    obtain ⟨c', hslot, hholds'⟩ := hstepped.slot hinv.sound hinv.wf hinv.owned hholds
    refine ⟨c', ?_, hholds'⟩
    rw [slotHistory_cons]
    cases he : event.forSlot k with
    | none =>
        rw [he] at hslot
        obtain rfl : c' = c := hslot
        exact htrace
    | some e =>
        rw [he] at hslot
        exact .cons htrace hslot

theorem brokerInvariant_start : BrokerInvariant B [] (BrokerState.empty : BrokerState β) where
  wf := List.nodup_nil
  sound i p hp := absurd hp (by simp [BrokerState.empty])
  owned i p hp := absurd hp (by simp [BrokerState.empty])
  records e he := absurd he (by simp)
  begun i p hp := absurd hp (by simp [BrokerState.empty])
  slots k := ⟨.free, .nil, .inl rfl⟩

/-- **The invariant holds in every run.** -/
theorem brokerInvariant_of_run {h : BrokerHistory β} (hrun : B.machine.Run h s) :
    BrokerInvariant B h s :=
  hrun.invariant (I := BrokerInvariant B) brokerInvariant_start
    fun _ _ _ _ _ _ hinv hstep => hinv.step hstep

/-! ## 6.  What a history tells of an identity -/

/-- A receipt of another identity is stored. -/
def storesElsewhere (k : String) (e : BrokerOp β × BrokerEvent β) : Bool :=
  match e.2 with
  | .stored _ k' _ => !decide (k' = k)
  | _ => false

theorem forSlot_elsewhere (k : String) (e : BrokerEvent β) :
    ((e.forSlot k).map OnceSlot.Event.isElsewhere).getD false =
      match e with
      | .stored _ k' _ => !decide (k' = k)
      | _ => false := by
  cases e with
  | started i k' =>
      rw [forSlot_started]
      by_cases hk : k' = k
      · rw [if_pos hk]
        rfl
      · rw [if_neg hk]
        rfl
  | stored i k' r =>
      rw [forSlot_stored]
      by_cases hk : k' = k <;> simp [hk, OnceSlot.Event.isElsewhere]
  | quiet | admitted | answered | raised | rejected => rfl

/-- The history of a slot counts the receipts of the others. -/
theorem countP_slotHistory (k : String) (h : BrokerHistory β) :
    (slotHistory k h).countP OnceSlot.Event.isElsewhere = h.countP (storesElsewhere k) := by
  unfold slotHistory
  rw [List.countP_filterMap]
  exact List.countP_congr fun e _ => by rw [forSlot_elsewhere]; rfl

theorem forSlot_eq_settled {e : BrokerEvent β} {i : Nat} {r : CapabilityReceipt β}
    (h : e.forSlot k = some (.settled i r)) : e = .stored i k r := by
  cases e with
  | started i' k' =>
      rw [forSlot_started] at h
      split at h <;> simp at h
  | stored i' k' r' =>
      rw [forSlot_stored] at h
      split at h
      · rename_i hk
        injection Option.some.inj h with hi hr
        rw [hi, hr, hk]
      · simp at h
  | quiet | admitted | answered | raised | rejected => exact absurd h (by simp [BrokerEvent.forSlot])

theorem slotHistory_append (k : String) (h h' : BrokerHistory β) :
    slotHistory k (h ++ h') = slotHistory k h ++ slotHistory k h' := List.filterMap_append

theorem slotHistory_started (k : String) (op : BrokerOp β) (i : Nat) (h : BrokerHistory β) :
    slotHistory k ((op, .started i k) :: h) = .begun i :: slotHistory k h := by
  rw [slotHistory_cons, forSlot_started, if_pos rfl]
  rfl

theorem slotHistory_stored (k : String) (op : BrokerOp β) (i : Nat) (r : CapabilityReceipt β)
    (h : BrokerHistory β) :
    slotHistory k ((op, .stored i k r) :: h) = .settled i r :: slotHistory k h := by
  rw [slotHistory_cons, forSlot_stored, if_pos rfl]
  rfl

/-! ## 7.  Results -/

/-- Two handlers of one identity are of two invocations, and between them the first one's receipt is
stored and after that as many receipts of other identities as the capacity. -/
def StartsApart (capacity : Nat) (h : BrokerHistory β) : Prop :=
  ∀ later mid early op₁ op₂ i j k,
    h = later ++ (op₂, .started j k) :: (mid ++ (op₁, .started i k) :: early) →
      i ≠ j ∧ ∃ newer op r older, mid = newer ++ (op, .stored i k r) :: older ∧
        capacity ≤ newer.countP (storesElsewhere k)

/-- The handler that a step starts was not started before. -/
theorem not_started_of_step {h : BrokerHistory β} {i : Nat} (hinv : BrokerInvariant B h s)
    (hstep : B.step op s = (.started i k, s')) : ∀ op' k', (op', BrokerEvent.started i k') ∉ h := by
  intro op' k' hmem
  obtain ⟨p, hp, -, hstarted⟩ := hinv.records _ hmem
  have hevent : ∀ event, event = BrokerEvent.started i k → Stepped B s op event s' → False := by
    intro event hevent hstepped
    cases hstepped with
    | rest hidle _ _ => exact absurd hidle (by rw [hevent]; simp [BrokerEvent.idle])
    | advanced here goes _ _ =>
        have hadv := advance_spec (hinv.sound _ _ here) goes
        rcases hadv.event with ⟨rfl, -⟩ | ⟨rfl, hnot, -⟩
        · exact absurd hevent (by simp)
        · obtain ⟨rfl, -⟩ := BrokerEvent.started.inj hevent
          rw [Option.some.inj (here.symm.trans hp), hstarted] at hnot
          exact absurd hnot (by simp)
    | refused => exact absurd hevent (by simp)
    | answered => exact absurd hevent (by simp)
    | admitted => exact absurd hevent (by simp)
    | interrupted => exact absurd hevent (by simp)
    | stored => exact absurd hevent (by simp)
    | recovered => exact absurd hevent (by simp)
    | gaveUp => exact absurd hevent (by simp)
  exact hevent _ rfl (step_stepped hstep)

/-- **Handlers of one identity are started apart**, in every run of the broker. -/
theorem handlers_apart {h : BrokerHistory β} (hrun : B.machine.Run h s) :
    StartsApart B.dedupeCapacity h := by
  rintro later mid early op₁ op₂ i j k rfl
  constructor
  · rintro rfl
    obtain ⟨s₂, hrun₂⟩ := hrun.of_append
    cases hrun₂ with
    | step hrun₁ hstep =>
        exact not_started_of_step (brokerInvariant_of_run hrun₁) hstep op₁ k (by simp)
  · obtain ⟨c, htrace, -⟩ := (brokerInvariant_of_run hrun).slots k
    rw [slotHistory_append, slotHistory_started, slotHistory_append, slotHistory_started] at htrace
    obtain ⟨newer', r, older', hmid, hcount⟩ := htrace.begun_apart
    obtain ⟨newer, rest, rfl, rfl, hrest⟩ := List.filterMap_eq_append_iff.mp hmid
    obtain ⟨skipped, e, older, rfl, hskipped, he, -⟩ := List.filterMap_eq_cons_iff.mp hrest
    obtain ⟨op, event⟩ := e
    obtain rfl := forSlot_eq_settled he
    refine ⟨newer ++ skipped, op, r, older, by simp, hcount.trans ?_⟩
    rw [List.countP_append]
    exact (countP_slotHistory k newer).le.trans (Nat.le_add_right _ _)

/-- An interpreter for a run that reads no numbers. -/
def namedInterpreter : Interpreter where
  str _ := ""
  repr t := t
  int _ := none
  lower t := t
  loads _ := none
  dumps _ := .error ⟨.valueError, ""⟩

/-- A tool that opens something outside. -/
def openTool : CapabilityTool where
  name := "open"
  brokerMetadata := .ok [("schema_revision", .str "1"), ("handler_revision", .str "1")]
  metadataForArgs := none
  validateArgs args := .ok args

/-- A broker with one tool and one required sink. -/
def openBroker : CapabilityBroker where
  H := Host.plain
  P := namedInterpreter
  registry _ := .ok (some openTool)
  usesDesktopSurface _ := false
  hasDesktopLock := false
  receiptSinks := [true]
  configuredDedupeCapacity := 0
  configuredBatchCalls := 4
  configuredFanout := 2

def openRef : CapabilityRef := ⟨"open", "1", "1", "", "", 0⟩

def openContext (call : String) : InvocationContext := ⟨"c", "r", "", "", call, "", 0, "", "", 0, false⟩

/-- One invocation from its admission to its receipt, and the same call again. -/
def openMoves : List (BrokerOp Unit) :=
  [.invoke 1 openRef none (openContext "n") "t0" 0, .prepare 1 (.ok .clear) "t1" "t1", .start 1,
    .finish 1 (.returned (.ok ⟨(), false⟩)), .collect 1 false "t2", .persist 1 [none],
    .invoke 2 openRef none (openContext "n") "t3" 0]

/-- The broker after the first moves of the list. -/
def opened (n : Nat) : BrokerHistory Unit × BrokerState Unit :=
  openBroker.machine.exec ([], BrokerState.empty) (openMoves.take n)

theorem opened_run (n : Nat) : openBroker.machine.Run (opened n).1 (opened n).2 := .exec .start _

/-- The repeat starts no handler. -/
example : ((opened 7).1.map fun e => match e.2 with | .started i _ => i | _ => 0) =
    [0, 0, 0, 0, 1, 0, 0] := by
  decide +kernel

theorem handlers_apart_opened : StartsApart 128 (opened 7).1 := handlers_apart (opened_run 7)

/-- An invocation of an identity that the ledger knows is answered from its entry. -/
theorem invoke_answered {entry : LedgerEntry β} {j : Nat} {ref : CapabilityRef} {args : Option PyDict}
    {context : InvocationContext} {now : String} {u : BitVec 128} {c : Invocation}
    (hentry : Dict.get? s.ledger c.key = some entry) (hfresh : s.procs j = none)
    (hc : B.accept ref args context now u = .ok c) :
    (B.invoke s j ref args context now u).1 = .answered j (c.duplicate entry) := by
  unfold CapabilityBroker.invoke
  rw [hfresh, hc]
  dsimp only [BrokerState.accept]
  rw [hentry]

/-- **A repeat is answered from the ledger** until as many other receipts as the capacity were stored: no
handler of the identity is started, no other receipt is stored under it, and every invocation of it gets
the receipt, or a conflict if it asks for something else, be it a call or one of a batch that may start. -/
theorem repeat_answered {newer older : BrokerHistory β} {i : Nat} {r : CapabilityReceipt β}
    (hrun : B.machine.Run (newer ++ (op, .stored i k r) :: older) s)
    (hrecent : newer.countP (storesElsewhere k) < B.dedupeCapacity) :
    (∀ op' j, (op', .started j k) ∉ newer) ∧ (∀ op' j r', (op', .stored j k r') ∉ newer) ∧
      ∃ p, s.procs i = some p ∧ p.call.key = k ∧
        (∀ j ref args context now u c, s.procs j = none → B.accept ref args context now u = .ok c →
          c.key = k → (B.machine.step (.invoke j ref args context now u) s).1 =
            .answered j (c.duplicate (.terminal p.call.fingerprint r))) ∧
        ∀ j b batch index call now u c, s.procs j = none → s.batches b = some batch →
          batch.calls[index]? = some call → s.mayStart batch index = true →
            B.accept call.ref (some call.args) (batch.child index call) now u = .ok c → c.key = k →
              (B.machine.step (.batchInvoke b index j now u) s).1 =
                .answered j (c.duplicate (.terminal p.call.fingerprint r)) := by
  have hinv := brokerInvariant_of_run hrun
  obtain ⟨slot, htrace, hholds⟩ := hinv.slots k
  rw [slotHistory_append, slotHistory_stored] at htrace
  have hcount : (slotHistory k newer).countP OnceSlot.Event.isElsewhere < B.dedupeCapacity :=
    (countP_slotHistory k newer).trans_lt hrecent
  obtain ⟨rfl, hall⟩ := htrace.remembered hcount
  have hlen := List.countP_eq_length.mpr hall
  obtain ⟨p, hp, hkey, hr | ⟨-, hage⟩⟩ := hholds
  · refine ⟨fun op' j hmem => ?_, fun op' j r' hmem => ?_, p, hp, hkey, ?_, ?_⟩
    · have he := hall _ (List.mem_filterMap.mpr ⟨_, hmem, if_pos rfl⟩)
      exact absurd he (by simp [OnceSlot.Event.isElsewhere])
    · have he := hall (.settled j r') (List.mem_filterMap.mpr ⟨_, hmem, by
        rw [forSlot_stored, if_pos rfl]⟩)
      exact absurd he (by simp [OnceSlot.Event.isElsewhere])
    · rintro j ref args context now u c hfresh hc rfl
      exact invoke_answered (hr.get? hinv.wf) hfresh hc
    · rintro j b batch index call now u c hfresh hbatch hcall hstart hc rfl
      show (B.batchInvoke s b index j now u).1 = _
      unfold CapabilityBroker.batchInvoke
      rw [hbatch, hfresh]
      dsimp only
      rw [hcall]
      dsimp only
      rw [if_pos hstart]
      exact invoke_answered (hr.get? hinv.wf) hfresh hc
  · omega

/-- The identity and the receipt of an event that stores one. -/
def BrokerEvent.receipt? : BrokerEvent β → Option (Nat × String × CapabilityReceipt β)
  | .stored i k r => some (i, k, r)
  | _ => none

/-- The first invocation stores a receipt. -/
theorem opened_stored : ∃ op k r older, (opened 6).1 = (op, BrokerEvent.stored 1 k r) :: older := by
  have h : ((opened 6).1.head?.bind (·.2.receipt?)).any (·.1 == 1) = true := by decide +kernel
  cases hh : (opened 6).1 with
  | nil =>
      rw [hh] at h
      exact absurd h (by simp)
  | cons e older =>
      rw [hh] at h
      obtain ⟨op, event⟩ := e
      cases event with
      | stored i k r =>
          obtain rfl : i = 1 := by simpa [BrokerEvent.receipt?] using h
          exact ⟨op, k, r, older, rfl⟩
      | quiet | admitted | answered | started | raised | rejected =>
          exact absurd h (by simp [BrokerEvent.receipt?])

theorem repeat_answered_opened : ∃ op k r older p, (opened 6).1 = (op, BrokerEvent.stored 1 k r) :: older ∧
    (opened 6).2.procs 1 = some p ∧ p.call.key = k ∧
      ∀ j ref args context now u c, (opened 6).2.procs j = none →
        openBroker.accept ref args context now u = .ok c → c.key = k →
          (openBroker.machine.step (.invoke j ref args context now u) (opened 6).2).1 =
            .answered j (c.duplicate (.terminal p.call.fingerprint r)) := by
  obtain ⟨op, k, r, older, hh⟩ := opened_stored
  have hrun : openBroker.machine.Run ([] ++ (op, .stored 1 k r) :: older) (opened 6).2 := hh ▸ opened_run 6
  obtain ⟨-, -, p, hp, hkey, hanswer, -⟩ := repeat_answered hrun
    (show 0 < openBroker.dedupeCapacity by decide)
  exact ⟨op, k, r, older, p, hh, hp, hkey, hanswer⟩

/-- **A stored receipt is honest**: it says what was started, and whether the effect may have been
applied. -/
theorem receipts_honest {h : BrokerHistory β} {i : Nat} {r : CapabilityReceipt β}
    (hrun : B.machine.Run h s) (hmem : (op, .stored i k r) ∈ h) :
    ∃ p, s.procs i = some p ∧ p.call.key = k ∧
      (p.started = true ↔ ∃ op', (op', BrokerEvent.started i k) ∈ h) ∧ Honest B p r := by
  have hinv := brokerInvariant_of_run hrun
  obtain ⟨p, hp, rfl, -, hhonest⟩ := hinv.records _ hmem
  refine ⟨p, hp, rfl, ⟨hinv.begun i p hp, ?_⟩, hhonest⟩
  rintro ⟨op', hstarted⟩
  obtain ⟨q, hq, -, hs⟩ := hinv.records _ hstarted
  rw [Option.some.inj (hp.symm.trans hq)]
  exact hs

theorem receipts_honest_opened : ∃ op k r p, (op, BrokerEvent.stored 1 k r) ∈ (opened 6).1 ∧
    (opened 6).2.procs 1 = some p ∧ p.call.key = k ∧
      (p.started = true ↔ ∃ op', (op', BrokerEvent.started 1 k) ∈ (opened 6).1) ∧
        Honest openBroker p r := by
  obtain ⟨op, k, r, older, hh⟩ := opened_stored
  have hmem : (op, BrokerEvent.stored 1 k r) ∈ (opened 6).1 := by simp [hh]
  obtain ⟨p, hp, hkey, hstarted, hhonest⟩ := receipts_honest (opened_run 6) hmem
  exact ⟨op, k, r, p, hmem, hp, hkey, hstarted, hhonest⟩

end Capability
end VariantOne
