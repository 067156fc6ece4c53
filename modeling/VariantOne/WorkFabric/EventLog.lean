import VariantOne.WorkFabric.Effects

/-!
# The log and its outbox

`LogAligned` is what every state of the repository keeps between the event log and
the outbox, whoever writes to them: the sequences of the log are `1, 2, 3, …` up to
the counter of the column, and the outbox lists the same events with the same
sequences, one row for each.  Outbox operations rewrite rows in place and never
touch the columns this is about.

`logAligned_of_run` is the induction over runs, with `Effect` for the cases of a step.  The alignment is
what makes a cursor on the log meaningful: the sequence of an event is its place, and `LogAligned.item`
finds the one outbox row of an event.
-/

namespace VariantOne
namespace WorkFabric

variable {H : Host} {env : Env} {t t' : Tables} {h : History}

/-- **The log and the outbox list the same events**, in order and without a gap. -/
structure LogAligned (t : Tables) : Prop where
  sequences : t.events.rows.map (·.sequence) = List.range' 1 t.eventSequence
  items : (t.outbox.rows.map fun o => (o.eventId, o.eventSequence)) =
    t.events.rows.map fun e => (e.eventId, e.sequence)

theorem LogAligned.initial : LogAligned .initial := ⟨rfl, rfl⟩

/-- What does not touch the log and keeps the items keeps the alignment. -/
theorem LogAligned.of_same (h : LogAligned t) (hevents : t'.events = t.events)
    (hcounter : t'.eventSequence = t.eventSequence)
    (hitems : (t'.outbox.rows.map fun o => (o.eventId, o.eventSequence)) =
      t.outbox.rows.map fun o => (o.eventId, o.eventSequence)) : LogAligned t' where
  sequences := by rw [hevents, hcounter, h.sequences]
  items := by rw [hitems, hevents, h.items]

/-- Logging an event adds it to both. -/
theorem LogAligned.logged {event : WorkEvent} (h : LogAligned t) (hlog : Logged t t' event) :
    LogAligned t' := by
  obtain ⟨outboxId, now, -, hout⟩ := hlog.outbox
  refine ⟨?_, ?_⟩
  · rw [hlog.events, hlog.counter, List.map_append, h.sequences, List.range'_concat,
      List.map_singleton, hlog.sequence]
    simp [Nat.add_comm]
  · rw [hout, hlog.events, List.map_append, List.map_append, h.items]
    rfl

theorem LogAligned.mapped {f : OutboxRow → OutboxRow} (h : LogAligned t)
    (hmapped : OutboxMapped t t' f) : LogAligned t' := by
  refine h.of_same hmapped.events hmapped.eventSequence ?_
  rw [hmapped.rows, List.map_map]
  refine List.map_congr_left fun r _ => ?_
  rw [Function.comp_apply, hmapped.keeps.eventId, hmapped.keeps.eventSequence]

theorem LogAligned.onlyJobs (h : LogAligned t) (honly : OnlyJobs t t') : LogAligned t' :=
  h.of_same honly.events honly.eventSequence (by rw [honly.outbox])

/-- Every way of changing the tables keeps the alignment. -/
theorem LogAligned.effect {op : Op} (h : LogAligned t) (heffect : Effect H env t t' op) :
    LogAligned t' := by
  cases heffect with
  | nothing same => exact same ▸ h
  | append _ _ appended _ => exact h.logged appended.toLogged
  | create creation =>
      rcases creation.log with ⟨honly, -⟩ | ⟨hlog, -⟩
      · exact h.onlyJobs honly
      · exact h.logged hlog
  | commit _ committed => exact h.logged committed.logged
  | beat _ only => exact h.onlyJobs only
  | recover recovered =>
      exact recovered.preserves (fun _ _ _ _ _ _ commit hu => hu.logged commit.logged) h
  | outbox mapped => exact h.mapped mapped
  | project only => exact h.of_same only.events only.eventSequence (by rw [only.outbox])

/-- **In every reachable state the log and the outbox are aligned.** -/
theorem logAligned_of_run (hrun : (repository H).Run h t) : LogAligned t :=
  hrun.invariant (I := fun _ t => LogAligned t) .initial
    fun _ _ _ _ _ _ hi hstep => hi.effect (effect_of_step hstep)

/-- Later events have larger sequences. -/
theorem LogAligned.increasing (h : LogAligned t) :
    t.events.rows.Pairwise fun e e' => e.sequence < e'.sequence := by
  have hpair : (t.events.rows.map (·.sequence)).Pairwise (· < ·) := by
    rw [h.sequences]
    exact List.pairwise_lt_range'
  exact List.pairwise_map.mp hpair

theorem LogAligned.eventIds (h : LogAligned t) :
    t.outbox.rows.map (·.eventId) = t.events.rows.map (·.eventId) := by
  have hfst := congrArg (List.map Prod.fst) h.items
  rw [List.map_map, List.map_map] at hfst
  exact hfst

/-- **Every event has exactly one outbox row**, and it carries the event's
sequence. -/
theorem LogAligned.item (h : LogAligned t) {e : WorkEvent} (he : e ∈ t.events.rows) :
    ∃ o, (t.outbox.rows.filter fun o => o.eventId = e.eventId) = [o] ∧
      o.eventSequence = e.sequence := by
  have hmem : (e.eventId, e.sequence) ∈
      t.outbox.rows.map fun o => (o.eventId, o.eventSequence) := by
    rw [h.items]
    exact List.mem_map_of_mem (f := fun e : WorkEvent => (e.eventId, e.sequence)) he
  obtain ⟨o, ho, hpair⟩ := List.mem_map.mp hmem
  obtain ⟨hid, hseq⟩ := Prod.mk.inj hpair
  have hunique : (t.outbox.rows.map (·.eventId)).Nodup := by
    rw [h.eventIds]
    exact t.events.unique
  exact ⟨o, filter_eq_singleton hunique ho hid, hseq⟩

end WorkFabric
end VariantOne
