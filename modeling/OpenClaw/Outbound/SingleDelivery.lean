import OpenClaw.Outbound.Ownership

/-! One send at a time, and no lost message.

A payload is handed to its channel when a live call has renamed its entry into
place, and when a turn of a recovery pass finds an entry due. `handed_step` names
these two; with `Owned` the entry is then one nobody else works on, and one that
was not renamed. That an entry stays in the queue or among the failed ones until
it is acknowledged needs no condition: no operation but the rename of an
acknowledgement takes its file away. -/
namespace OpenClaw.Outbound
open Foundation Option

variable {π : Type*}

/-- A send of the entry is in progress. -/
def State.Sending (s : State π) (id : String) : Prop :=
  s.live.get? id = some .sending ∨
    ∃ i p entry rest, s.passes.get? i = some p ∧ p.phase = .sending entry rest ∧ entry.id = id

/-! ### What a step hands over -/

/-- The two places where a payload is handed to its channel. -/
inductive Hands (s : State π) : String → Prop
  | live {id} : s.live.get? id = some .naming → Hands s id
  | recovery {i p entry rest} : s.passes.get? i = some p → p.phase = .looping (entry :: rest) → Hands s entry.id

variable {id : String} {fault : Option String} {now : Nat}

section Handing
variable {s t : State π} {i : Nat} {p : Pass π}

theorem liveOp_handed {phase : LivePhase π} (h : liveOp id fault now s phase = some t) :
    t.handed = s.handed ∨ t.handed = s.handed ++ [id] ∧ phase = .naming := by
  cases phase with
  | writing file =>
    simp only [liveOp] at h
    split_ifs at h <;> cases h <;> exact .inl rfl
  | naming =>
    simp only [liveOp] at h
    split at h
    all_goals cases h
    · exact .inr ⟨rfl, rfl⟩
    · exact .inl rfl
  | sending => cases h
  | acking phase sent =>
    simp only [liveOp] at h
    split at h
    all_goals cases h
    · exact .inl rfl
    · cases sent <;> exact .inl rfl
    · exact .inl rfl
  | failing phase error =>
    simp only [liveOp] at h
    split at h <;> cases h <;> exact .inl rfl

theorem turn_handed (s : State π) (i : Nat) (p : Pass π) (now : Nat) (pending : List (QueuedDelivery π)) :
    (turn i now p s pending).handed = s.handed ∨
      ∃ entry rest, pending = entry :: rest ∧ (turn i now p s pending).handed = s.handed ++ [entry.id] := by
  cases pending with
  | nil => exact .inl rfl
  | cons entry rest =>
    simp only [turn]
    split_ifs
    · exact .inl rfl
    · exact .inl rfl
    · split
      · exact .inl rfl
      · exact .inr ⟨entry, rest, rfl, rfl⟩

theorem afterError_handed {error : String} {entry : QueuedDelivery π} {rest : List (QueuedDelivery π)} :
    (afterError i p error entry rest s).handed = s.handed := by
  simp only [afterError]
  split_ifs <;> rfl

theorem load_handed {file : String} {files : List String} {entries : List (QueuedDelivery π)} :
    (load i fault p file files entries s).handed = s.handed := by
  simp only [load]
  split
  · split_ifs <;> rfl
  · rfl

theorem passOp_handed (h : passOp i fault now s p = some t) :
    t.handed = s.handed ∨ ∃ entry rest, p.phase = .looping (entry :: rest) ∧ t.handed = s.handed ++ [entry.id] := by
  unfold passOp at h
  split at h
  case h_9 pending hphase =>
    cases h
    obtain hkept | ⟨entry, rest, rfl, hhanded⟩ := turn_handed s i p now pending
    · exact .inl hkept
    · exact .inr ⟨entry, rest, hphase, hhanded⟩
  all_goals left
  case h_4 =>
    cases h
    exact load_handed
  case h_11 =>
    split at h
    all_goals cases h
    · rfl
    · rfl
    · exact afterError_handed
  all_goals first | (cases h <;> rfl) | (split at h <;> cases h <;> rfl)

theorem handed_step {e : Event π} (h : step e s = some t) (ht : t.handed = s.handed ++ [id]) :
    Hands s id := by
  have hkept : t.handed ≠ s.handed := by simp [ht]
  cases e with
  | live k fault now =>
    obtain ⟨phase, hl, h⟩ := bind_eq_some_iff.mp h
    obtain hsame | ⟨hhanded, rfl⟩ := liveOp_handed h
    · exact absurd hsame hkept
    · obtain rfl : k = id := by simpa [hhanded] using ht
      exact .live hl
  | pass i fault now =>
    obtain ⟨p, hp, h⟩ := bind_eq_some_iff.mp h
    obtain hsame | ⟨entry, rest, hphase, hhanded⟩ := passOp_handed h
    · exact absurd hsame hkept
    · obtain rfl : entry.id = id := by simpa [hhanded] using ht
      exact .recovery hp hphase
  | settlePass i error =>
    obtain ⟨p, hp, h⟩ := bind_eq_some_iff.mp h
    unfold settlePass at h
    split at h
    · split at h
      all_goals cases h
      · exact absurd rfl hkept
      · exact absurd afterError_handed hkept
    · cases h
  | enqueue k payload now =>
    simp only [step] at h
    split_ifs at h
    cases h
    exact absurd rfl hkept
  | settleLive k outcome =>
    simp only [step] at h
    split at h
    all_goals cases h
    cases outcome <;> exact absurd rfl hkept
  | recover i maxRecoveryMs =>
    simp only [step] at h
    split at h
    all_goals cases h
    exact absurd rfl hkept
  | list i fault markers files =>
    obtain ⟨p, hp, h⟩ := bind_eq_some_iff.mp h
    unfold listed at h
    split at h
    · split_ifs at h <;> cases h <;> exact absurd rfl hkept
    · cases h
  | deferred i k fault now =>
    obtain ⟨p, hp, h⟩ := bind_eq_some_iff.mp h
    unfold deferredOp at h
    split at h
    · obtain ⟨phase, -, h⟩ := map_eq_some_iff.mp h
      split at h <;> cases h <;> exact absurd rfl hkept
    · cases h
  | crash =>
    cases h
    exact absurd rfl hkept

/-- What is handed over is nobody else's, and was not renamed. -/
theorem Owned.hands (hs : Owned s) (h : Hands s id) : id ∉ s.renamed ∧ ¬ s.Sending id := by
  cases h with
  | live hl =>
    obtain ⟨hjson, hrenamed⟩ : s.disk.json.get? id = none ∧ id ∉ s.renamed := hs.live id _ hl
    refine ⟨hrenamed, ?_⟩
    rintro (hsend | ⟨j, q, entry, rest, hq, hphase, rfl⟩)
    · rw [hl] at hsend
      cases hsend
    · exact hs.apart _ _ j q hl hq (by simp [hphase, PassPhase.held])
  | @recovery i p entry rest hp hphase =>
    have hheld : entry.id ∈ p.phase.held := by simp [hphase, PassPhase.held]
    refine ⟨hs.not_renamed ((hs.pass i p hp).present _ hheld), ?_⟩
    rintro (hsend | ⟨j, q, entry', rest', hq, hphase', heq⟩)
    · exact hs.apart _ _ i p hsend hp hheld
    · rcases eq_or_ne i j with rfl | hne
      · rw [hp] at hq
        cases hq
        rw [hphase] at hphase'
        cases hphase'
      · refine hs.alone i j p q hne hp hq _ hheld ?_
        simp [hphase', PassPhase.held, heq]

end Handing

/-! ### What stays -/

/-- An entry of the queue keeps a file until it is renamed by an acknowledgement. -/
structure Keeps (s t : State π) : Prop where
  renamed : ∀ id ∈ s.renamed, id ∈ t.renamed
  present : ∀ id, s.disk.Present id → t.disk.Present id ∨ id ∈ t.renamed
  queued : ∀ id ∈ t.queued, id ∈ s.queued ∨ t.disk.Present id

section Keeping
variable {s t : State π} {i : Nat} {p : Pass π}

/-- The files of entries stay as they are. -/
theorem Keeps.same (hjson : t.disk.json = s.disk.json) (hfailed : t.disk.failed = s.disk.failed)
    (hrenamed : t.renamed = s.renamed) (hqueued : t.queued = s.queued) : Keeps s t where
  renamed id hid := hrenamed ▸ hid
  present id hid := .inl (by simpa [Disk.Present, hjson, hfailed] using hid)
  queued id hid := .inl (hqueued ▸ hid)

theorem Keeps.fileOp (hop : FileOp id s.disk t.disk) (hrenamed : t.renamed = s.renamed)
    (hqueued : t.queued = s.queued) : Keeps s t where
  renamed k hk := hrenamed ▸ hk
  present _ hk := .inl (hop.present hk)
  queued k hk := .inl (hqueued ▸ hk)

/-- An operation of an acknowledgement takes no file but that of its entry. -/
theorem Keeps.ack {phase : AckPhase} {d : Disk π} {renamed : Bool} {r : AckResult}
    (hack : ackDelivery id fault s.disk phase = (d, renamed, r)) (hdisk : t.disk = d)
    (hrenamed : t.renamed = if renamed then id :: s.renamed else s.renamed) (hqueued : t.queued = s.queued) :
    Keeps s t where
  renamed k hk := by
    rw [hrenamed]
    split_ifs
    · exact List.mem_cons_of_mem _ hk
    · exact hk
  present k hk := by
    have h := ackDelivery_present id fault phase hk
    rw [hack] at h
    rw [hdisk, hrenamed]
    rcases h with h | ⟨h, rfl⟩
    · exact .inl h
    · right
      simp only at h
      simp [h]
  queued k hk := .inl (hqueued ▸ hk)

theorem liveOp_keeps {phase : LivePhase π} (h : liveOp id fault now s phase = some t) : Keeps s t := by
  cases phase with
  | writing file =>
    simp only [liveOp] at h
    split_ifs at h <;> cases h <;> exact .same rfl rfl rfl rfl
  | naming =>
    simp only [liveOp] at h
    split at h
    all_goals cases h
    · rename_i d hd
      obtain ⟨hop, hsome⟩ := renameTmp_op hd
      refine ⟨fun k hk => hk, fun k hk => .inl (hop.present hk), fun k hk => ?_⟩
      rcases List.mem_cons.mp hk with rfl | hk
      · exact .inr (.inl hsome)
      · exact .inl hk
    · exact .same rfl rfl rfl rfl
  | sending => cases h
  | acking phase sent =>
    simp only [liveOp] at h
    split at h
    all_goals
      rename_i hack
      cases h
    · exact .ack hack rfl rfl rfl
    · cases sent <;> exact .ack hack rfl rfl rfl
    · exact .ack hack rfl rfl rfl
  | failing phase error =>
    have hop := failDelivery_op id error now fault s.disk phase
    simp only [liveOp] at h
    split at h
    all_goals
      rename_i heq
      rw [heq] at hop
      cases h
      exact .fileOp hop rfl rfl

theorem afterError_keeps {error : String} {entry : QueuedDelivery π} {rest : List (QueuedDelivery π)}
    (h : Keeps s t) : Keeps s (afterError i p error entry rest t) := by
  simp only [afterError]
  split_ifs <;> exact ⟨h.renamed, h.present, h.queued⟩

theorem turn_keeps {pending : List (QueuedDelivery π)} : Keeps s (turn i now p s pending) := by
  cases pending with
  | nil => exact .same rfl rfl rfl rfl
  | cons entry rest =>
    simp only [turn]
    split_ifs
    · exact .same rfl rfl rfl rfl
    · exact .same rfl rfl rfl rfl
    · split <;> exact .same rfl rfl rfl rfl

theorem load_keeps {file : String} {files : List String} {entries : List (QueuedDelivery π)} :
    Keeps s (load i fault p file files entries s) := by
  simp only [load]
  split
  · split_ifs <;> exact .same rfl rfl rfl rfl
  · exact .same rfl rfl rfl rfl

theorem passOp_keeps (h : passOp i fault now s p = some t) : Keeps s t := by
  cases hphase : p.phase with
  | listing | sending entry rest => simp [passOp, hphase] at h
  | cleaning markers files =>
    simp only [passOp, hphase] at h
    cases markers with
    | nil =>
      cases h
      exact .same rfl rfl rfl rfl
    | cons marker markers =>
      cases h
      have hop : FileOp marker s.disk (if fault.isSome then s.disk else s.disk.unlinkDelivered marker) := by
        split_ifs
        · exact .refl _ _
        · exact .aside rfl rfl
      exact .fileOp hop rfl rfl
  | loading files entries =>
    simp only [passOp, hphase] at h
    cases files with
    | cons file files =>
      cases h
      exact load_keeps
    | nil => cases entries <;> cases h <;> exact .same rfl rfl rfl rfl
  | migrating entry written files entries =>
    simp only [passOp, hphase] at h
    cases written with
    | false =>
      simp only at h
      split_ifs at h <;> cases h <;> exact .same rfl rfl rfl rfl
    | true =>
      simp only at h
      split at h
      all_goals cases h
      · rename_i d hd
        exact .fileOp (renameTmp_op hd).1 rfl rfl
      · exact .same rfl rfl rfl rfl
  | looping pending =>
    simp only [passOp, hphase] at h
    cases h
    exact turn_keeps
  | acking phase entry rest =>
    simp only [passOp, hphase] at h
    split at h
    all_goals
      rename_i hack
      cases h
    · exact .ack hack rfl rfl rfl
    · exact .ack hack rfl rfl rfl
    · exact afterError_keeps (.ack hack rfl rfl rfl)
  | failing phase error entry rest =>
    have hop := failDelivery_op entry.id error now fault s.disk phase
    simp only [passOp, hphase] at h
    split at h
    all_goals
      rename_i heq
      rw [heq] at hop
      cases h
      exact .fileOp hop rfl rfl
  | moving entry rest =>
    simp only [passOp, hphase] at h
    cases h
    have hop : FileOp entry.id s.disk (if fault.isSome then s.disk else (s.disk.renameFailed entry.id).getD s.disk) := by
      split_ifs
      · exact .refl _ _
      · cases hd : s.disk.renameFailed entry.id with
        | none => exact .refl _ _
        | some d => exact renameFailed_op hd
    exact .fileOp hop rfl rfl
  | deferring fails =>
    simp only [passOp, hphase] at h
    split_ifs at h
    cases h
    exact .same rfl rfl rfl rfl

theorem step_keeps {e : Event π} (h : step e s = some t) : Keeps s t := by
  cases e with
  | enqueue id payload now =>
    simp only [step] at h
    split_ifs at h
    cases h
    exact .same rfl rfl rfl rfl
  | live id fault now =>
    obtain ⟨phase, -, h⟩ := bind_eq_some_iff.mp h
    exact liveOp_keeps h
  | settleLive id outcome =>
    simp only [step] at h
    split at h
    all_goals cases h
    cases outcome <;> exact .same rfl rfl rfl rfl
  | recover i maxRecoveryMs =>
    simp only [step] at h
    split at h
    all_goals cases h
    exact .same rfl rfl rfl rfl
  | list i fault markers files =>
    obtain ⟨p, -, h⟩ := bind_eq_some_iff.mp h
    unfold listed at h
    split at h
    · split_ifs at h <;> cases h <;> exact .same rfl rfl rfl rfl
    · cases h
  | pass i fault now =>
    obtain ⟨p, -, h⟩ := bind_eq_some_iff.mp h
    exact passOp_keeps h
  | settlePass i error =>
    obtain ⟨p, -, h⟩ := bind_eq_some_iff.mp h
    unfold settlePass at h
    split at h
    · split at h
      all_goals cases h
      · exact .same rfl rfl rfl rfl
      · exact afterError_keeps (.same rfl rfl rfl rfl)
    · cases h
  | deferred i id fault now =>
    obtain ⟨p, -, h⟩ := bind_eq_some_iff.mp h
    unfold deferredOp at h
    split at h
    · obtain ⟨phase, -, h⟩ := map_eq_some_iff.mp h
      have hop := failDelivery_op id "recovery time budget exceeded" now fault s.disk phase
      split at h
      all_goals
        rename_i heq
        rw [heq] at hop
        cases h
        exact .fileOp hop rfl rfl
    · cases h
  | crash =>
    cases h
    exact .same rfl rfl rfl rfl

end Keeping

/-- No entry is lost: what was put in the queue is there, or among the failed ones,
or was renamed by an acknowledgement. -/
theorem entries_stay {d : Disk π} {events : List (Event π)} {s : State π}
    (hr : Machine.run step events (State.start d) = some s) :
    ∀ id ∈ s.queued, id ∈ s.renamed ∨ s.disk.Present id := by
  refine Machine.run_invariant step (I := fun s => ∀ id ∈ s.queued, id ∈ s.renamed ∨ s.disk.Present id) ?_ events ?_ hr
  · intro e s t hs h id hid
    have hkeeps := step_keeps h
    rcases hkeeps.queued id hid with hold | hnew
    · rcases hs id hold with hr | hp
      · exact .inl (hkeeps.renamed id hr)
      · exact (hkeeps.present id hp).symm
    · exact .inr hnew
  · intro id hid
    obtain ⟨file, hfile⟩ := (InsertionMap.mem_keys _ _).mp hid
    exact .inr (.inl (isSome_iff_exists.mpr ⟨file, hfile⟩))

/-! ### One send at a time -/

/-- In a run in which no pass reads the file of an entry that a live call or another
pass works on, no payload is handed to its channel after an acknowledged send of it,
after its entry was renamed (by this process or by one that crashed), or while
another send of it is in progress; and no entry is lost. -/
theorem deliveries_apart {d : Disk π} {events : List (Event π)} {s : State π}
    (hc : Machine.Within step ReadsApart events (State.start d))
    (hr : Machine.run step events (State.start d) = some s) :
    (∀ e t id, step e s = some t → t.handed = s.handed ++ [id] →
      id ∉ s.acknowledged ∧ id ∉ s.renamed ∧ ¬ s.Sending id) ∧
    ∀ id ∈ s.queued, id ∈ s.renamed ∨ s.disk.Present id := by
  have hs := run_owned hc hr
  refine ⟨fun e t id h ht => ?_, entries_stay hr⟩
  obtain ⟨hrenamed, hsending⟩ := hs.hands (handed_step h ht)
  exact ⟨fun hack => hrenamed (hs.renamed id hack), hrenamed, hsending⟩

/-- A message left behind by a process that crashed while it was sent, a pass that
sends it again, and a message that comes in meanwhile. -/
def restartRun : List (Event String) :=
  [.enqueue "a" "hello" 10, .live "a" none 11, .live "a" none 12, .crash,
    .recover 0 60000, .list 0 none [] ["a"], .pass 0 none 20, .enqueue "b" "world" 21, .live "b" none 22,
    .live "b" none 23, .pass 0 none 24, .pass 0 none 25, .pass 0 none 26, .settleLive "b" .sent,
    .settlePass 0 none, .pass 0 none 27, .live "b" none 28, .pass 0 none 29, .live "b" none 30]

theorem restart_deliveries_apart : ∃ s, Machine.run step restartRun (State.start {}) = some s ∧
    s.handed = ["a", "b", "a"] ∧ s.acknowledged = ["b", "a"] ∧
    (∀ e t id, step e s = some t → t.handed = s.handed ++ [id] →
      id ∉ s.acknowledged ∧ id ∉ s.renamed ∧ ¬ s.Sending id) ∧
    ∀ id ∈ s.queued, id ∈ s.renamed ∨ s.disk.Present id := by
  obtain ⟨s, hs, hv⟩ := map_eq_some_iff.mp (show (Machine.run step restartRun (State.start {})).map (fun s =>
    (s.handed, s.acknowledged)) = some (["a", "b", "a"], ["b", "a"]) by decide)
  rw [Prod.mk.injEq] at hv
  exact ⟨s, hs, hv.1, hv.2, deliveries_apart (by decide) hs⟩

/-- A pass starts while a message is being sent, and reads its entry. -/
def overlappingRun : List (Event String) :=
  [.enqueue "a" "hello" 10, .live "a" none 11, .live "a" none 12,
    .recover 0 60000, .list 0 none [] ["a"], .pass 0 none 20, .pass 0 none 21, .pass 0 none 22]

/-- The send succeeds and is acknowledged before the pass gets to the entry. -/
def acknowledgedRun : List (Event String) :=
  overlappingRun ++ [.settleLive "a" .sent, .live "a" none 23, .live "a" none 24]

/-- The next turn of the pass sends the message again: beside its first send, or
after that was acknowledged. -/
theorem overlapping_sends_twice :
    (∃ s t, Machine.run step overlappingRun (State.start {}) = some s ∧ step (.pass 0 none 25) s = some t ∧
      t.handed = s.handed ++ ["a"] ∧ s.Sending "a") ∧
    ∃ s t, Machine.run step acknowledgedRun (State.start {}) = some s ∧ step (.pass 0 none 25) s = some t ∧
      t.handed = s.handed ++ ["a"] ∧ "a" ∈ s.acknowledged ∧ "a" ∈ s.renamed := by
  constructor
  · obtain ⟨s, hs, hv⟩ := map_eq_some_iff.mp (show (Machine.run step overlappingRun (State.start {})).map
      (fun s => (s.handed, s.live.get? "a", (step (.pass 0 none 25) s).map State.handed)) =
        some (["a"], some .sending, some ["a", "a"]) by decide)
    simp only [Prod.mk.injEq] at hv
    obtain ⟨hhanded, hlive, hnext⟩ := hv
    obtain ⟨t, ht, hthanded⟩ := map_eq_some_iff.mp hnext
    exact ⟨s, t, hs, ht, by rw [hthanded, hhanded]; rfl, .inl hlive⟩
  · obtain ⟨s, hs, hv⟩ := map_eq_some_iff.mp (show (Machine.run step acknowledgedRun (State.start {})).map
      (fun s => (s.handed, s.acknowledged, s.renamed, (step (.pass 0 none 25) s).map State.handed)) =
        some (["a"], ["a"], ["a"], some ["a", "a"]) by decide)
    simp only [Prod.mk.injEq] at hv
    obtain ⟨hhanded, hack, hrenamed, hnext⟩ := hv
    obtain ⟨t, ht, hthanded⟩ := map_eq_some_iff.mp hnext
    refine ⟨s, t, hs, ht, by rw [hthanded, hhanded]; rfl, ?_, ?_⟩
    · rw [hack]
      exact List.mem_cons_self
    · rw [hrenamed]
      exact List.mem_cons_self

end OpenClaw.Outbound
