import OpenClaw.Outbound.DeliveryQueue

/-! Who works on which entry.

A live call works on the entry it wrote, a recovery pass on those it has read and
not finished with. `Owned` says that no two of them work on the same entry, that
the file of an entry somebody works on is there until its worker moves it, and
that an entry renamed to `.delivered` never has a file in the queue again. Every
operation goes along with it (`live_step`, `pass_step`) except one: a pass that
reads a file takes up its entry, whoever works on it. `ReadsApart` asks of a step
that it is not such a read. -/
namespace OpenClaw.Outbound
open Foundation List InsertionMap Option

variable {π : Type*}

/-! ### Who works on an entry -/

/-- The file of the entry is in the queue, and the call still has to move it or to
write it again. -/
def LivePhase.holds : LivePhase π → Bool
  | .writing _ | .naming | .acking .cleanup _ => false
  | .sending | .acking .rename _ | .failing _ _ => true

def entryIds (entries : List (QueuedDelivery π)) : List String := entries.map QueuedDelivery.id

namespace PassPhase

/-- The entries the pass has read and is not done with. -/
def held : PassPhase π → List String
  | .listing | .cleaning _ _ => []
  | .loading _ entries => entryIds entries
  | .migrating entry _ _ entries => entry.id :: entryIds entries
  | .looping pending => entryIds pending
  | .acking .cleanup _ rest => entryIds rest
  | .sending entry rest | .acking .rename entry rest | .failing _ _ entry rest | .moving entry rest =>
    entry.id :: entryIds rest
  | .deferring fails => fails.keys

/-- The files the pass has found and not read. -/
def unread : PassPhase π → List String
  | .cleaning _ files | .loading files _ | .migrating _ _ files _ => files
  | _ => []

end PassPhase

/-- A live call works on the entry. -/
def State.liveHolds (s : State π) (id : String) : Bool := (s.live.get? id).any LivePhase.holds

/-- A pass other than `i` works on the entry. -/
def State.passHolds (s : State π) (i : Nat) (id : String) : Bool :=
  s.passes.entries.any fun (j, p) => j ≠ i && id ∈ p.phase.held

/-- If the step is a pass reading the file of an entry, neither a live call nor
another pass works on it. -/
def readsApart : Event π → State π → Bool
  | .pass i none _, s => match (s.passes.get? i).map Pass.phase with
    | some (.loading (id :: _) _) => !s.liveHolds id && !s.passHolds i id
    | _ => true
  | _, _ => true

abbrev ReadsApart (e : Event π) (s : State π) : Prop := readsApart e s = true

/-! ### The invariant -/

/-- What holds of the files and the history by themselves. -/
structure Settled (s : State π) : Prop where
  gone : ∀ id ∈ s.renamed, s.disk.json.get? id = none
  renamed : ∀ id ∈ s.acknowledged, id ∈ s.renamed
  drawn : ∀ id, (s.disk.json.get? id).isSome → id ∈ s.used
  drawnRenamed : ∀ id ∈ s.renamed, id ∈ s.used

/-- What the phase of a live call says about its entry. -/
def LivePhase.Fits (s : State π) (id : String) : LivePhase π → Prop
  | .writing _ | .naming => s.disk.json.get? id = none ∧ id ∉ s.renamed
  | .acking .cleanup _ => id ∈ s.renamed
  | .sending | .acking .rename _ | .failing _ _ => (s.disk.json.get? id).isSome

structure PassPhase.Fits (s : State π) (phase : PassPhase π) : Prop where
  distinct : (phase.unread ++ phase.held).Nodup
  present : ∀ id ∈ phase.held, (s.disk.json.get? id).isSome
  marked : ∀ entry rest, phase = .acking .cleanup entry rest → entry.id ∈ s.renamed

structure Owned (s : State π) : Prop extends Settled s where
  liveDrawn : ∀ id phase, s.live.get? id = some phase → id ∈ s.used
  live : ∀ id phase, s.live.get? id = some phase → phase.Fits s id
  pass : ∀ i p, s.passes.get? i = some p → p.phase.Fits s
  apart : ∀ id phase i p, s.live.get? id = some phase → s.passes.get? i = some p → id ∉ p.phase.held
  alone : ∀ i j p q, i ≠ j → s.passes.get? i = some p → s.passes.get? j = some q →
    ∀ id ∈ p.phase.held, id ∉ q.phase.held

/-- Nobody but, at most, pass `i` works on the entry. -/
def State.Own (s : State π) (i : Nat) (id : String) : Prop :=
  s.live.get? id = none ∧ ∀ j q, j ≠ i → s.passes.get? j = some q → id ∉ q.phase.held

theorem Owned.own {s : State π} (hs : Owned s) {i : Nat} {p : Pass π} (hp : s.passes.get? i = some p)
    {id : String} (hid : id ∈ p.phase.held) : s.Own i id := by
  constructor
  · cases h : s.live.get? id with
    | none => rfl
    | some phase => exact absurd hid (hs.apart id phase i p h hp)
  · intro j q hj hq
    exact hs.alone i j p q hj.symm hp hq id hid

/-- An entry whose file is in the queue was not renamed. -/
theorem Settled.not_renamed {s : State π} (hs : Settled s) {id : String} (h : (s.disk.json.get? id).isSome) :
    id ∉ s.renamed := by
  intro hr
  rw [hs.gone id hr] at h
  cases h

/-! ### Steps that work on their own entries -/

/-- The files and the history change for entries of the worker's own only. -/
structure Within (own : String → Prop) (s t : State π) : Prop where
  json : ∀ id, ¬ own id → t.disk.json.get? id = s.disk.json.get? id
  renamed : ∀ id ∈ t.renamed, own id ∨ id ∈ s.renamed
  grows : ∀ id ∈ s.renamed, id ∈ t.renamed
  used : ∀ id ∈ s.used, id ∈ t.used
  settled : Settled t

section Frames
variable {own : String → Prop} {s t : State π}

theorem LivePhase.Fits.frame {id : String} {phase : LivePhase π} (h : phase.Fits s id) (hw : Within own s t)
    (hid : ¬ own id) : phase.Fits t id := by
  have hj := hw.json id hid
  have hr : id ∈ t.renamed → id ∈ s.renamed := fun h => (hw.renamed id h).resolve_left hid
  match phase with
  | .writing _ | .naming => exact ⟨hj.trans h.1, fun hn => h.2 (hr hn)⟩
  | .acking .cleanup _ => exact hw.grows id h
  | .sending | .acking .rename _ | .failing _ _ =>
    show (t.disk.json.get? id).isSome
    rw [hj]
    exact h

theorem PassPhase.Fits.frame {phase : PassPhase π} (h : phase.Fits s) (hw : Within own s t)
    (hown : ∀ id ∈ phase.held, ¬ own id) : phase.Fits t where
  distinct := h.distinct
  present id hid := by
    rw [hw.json id (hown id hid)]
    exact h.present id hid
  marked entry rest hphase := hw.grows _ (h.marked entry rest hphase)

/-- A live call works on its own entry. -/
theorem Owned.live_step (hs : Owned s) {id : String} (hw : Within (· = id) s t)
    (hfree : ∀ i p, s.passes.get? i = some p → id ∉ p.phase.held)
    (hlive : ∀ k, k ≠ id → t.live.get? k = s.live.get? k) (hpasses : t.passes = s.passes)
    (hphase : ∀ phase, t.live.get? id = some phase → id ∈ t.used ∧ phase.Fits t id) : Owned t where
  toSettled := hw.settled
  liveDrawn k phase hk := by
    rcases eq_or_ne k id with rfl | hne
    · exact (hphase phase hk).1
    · exact hw.used k (hs.liveDrawn k phase (by rw [← hlive k hne, hk]))
  live k phase hk := by
    rcases eq_or_ne k id with rfl | hne
    · exact (hphase phase hk).2
    · exact (hs.live k phase (by rw [← hlive k hne, hk])).frame hw hne
  pass i p hp := by
    rw [hpasses] at hp
    exact (hs.pass i p hp).frame hw fun k hk heq => hfree i p hp (heq ▸ hk)
  apart k phase i p hk hp := by
    rw [hpasses] at hp
    rcases eq_or_ne k id with rfl | hne
    · exact hfree i p hp
    · exact hs.apart k phase i p (by rw [← hlive k hne, hk]) hp
  alone i j p q := by
    rw [hpasses]
    exact hs.alone i j p q

/-- A pass works on entries nobody else works on. -/
theorem Owned.pass_step (hs : Owned s) {i : Nat} (hw : Within (s.Own i) s t) (hlive : t.live = s.live)
    (hpasses : ∀ j, j ≠ i → t.passes.get? j = s.passes.get? j)
    (hphase : ∀ p, t.passes.get? i = some p → p.phase.Fits t ∧ ∀ id ∈ p.phase.held, s.Own i id) : Owned t where
  toSettled := hw.settled
  liveDrawn id phase hid := by
    rw [hlive] at hid
    exact hw.used id (hs.liveDrawn id phase hid)
  live id phase hid := by
    rw [hlive] at hid
    exact (hs.live id phase hid).frame hw fun hown => by simp [hown.1] at hid
  pass j q hq := by
    rcases eq_or_ne j i with rfl | hne
    · exact (hphase q hq).1
    · rw [hpasses j hne] at hq
      exact (hs.pass j q hq).frame hw fun id hid hown => hown.2 j q hne hq hid
  apart id phase j q hid hq := by
    rw [hlive] at hid
    rcases eq_or_ne j i with rfl | hne
    · intro hheld
      simp [((hphase q hq).2 id hheld).1] at hid
    · exact hs.apart id phase j q hid (by rw [← hpasses j hne, hq])
  alone j k p q hjk hp hq id hid := by
    rcases eq_or_ne j i with rfl | hj
    · rw [hpasses k hjk.symm] at hq
      exact ((hphase p hp).2 id hid).2 k q hjk.symm hq
    · rw [hpasses j hj] at hp
      rcases eq_or_ne k i with rfl | hk
      · exact fun hheld => ((hphase q hq).2 id hheld).2 j p hj hp hid
      · rw [hpasses k hk] at hq
        exact hs.alone j k p q hjk hp hq id hid

/-- No file of the queue changes, and no entry is renamed. -/
theorem Settled.quiet (hs : Settled s) (hjson : t.disk.json = s.disk.json) (hrenamed : t.renamed = s.renamed)
    (hack : ∀ id ∈ t.acknowledged, id ∈ s.acknowledged ∨ id ∈ s.renamed) (hused : ∀ id ∈ s.used, id ∈ t.used) :
    Within own s t where
  json id _ := by rw [hjson]
  renamed id hid := .inr (hrenamed ▸ hid)
  grows id hid := hrenamed ▸ hid
  used := hused
  settled :=
    { gone := by
        rw [hrenamed, hjson]
        exact hs.gone
      renamed := fun id hid => hrenamed ▸ (hack id hid).elim (hs.renamed id) fun h => h
      drawn := fun id hid => hused id (hs.drawn id (hjson ▸ hid))
      drawnRenamed := fun id hid => hused id (hs.drawnRenamed id (hrenamed ▸ hid)) }

/-- The file of an entry that was not renamed changes. -/
theorem Settled.fileOp (hs : Settled s) {id : String} (hid : own id) (hdrawn : id ∈ s.used) (hnot : id ∉ s.renamed)
    (hop : FileOp id s.disk t.disk) (hrenamed : t.renamed = s.renamed) (hack : t.acknowledged = s.acknowledged)
    (hused : t.used = s.used) : Within own s t where
  json k hk := hop.json_ne fun heq => hk (heq ▸ hid)
  renamed k hk := .inr (hrenamed ▸ hk)
  grows k hk := hrenamed ▸ hk
  used k hk := hused ▸ hk
  settled :=
    { gone := by
        rw [hrenamed]
        intro k hk
        rw [hop.json_ne fun heq => hnot (heq ▸ hk)]
        exact hs.gone k hk
      renamed := by
        rw [hrenamed, hack]
        exact hs.renamed
      drawn := by
        rw [hused]
        intro k hk
        rcases eq_or_ne k id with rfl | hne
        · exact hdrawn
        · exact hs.drawn k (hop.json_ne hne ▸ hk)
      drawnRenamed := by
        rw [hrenamed, hused]
        exact hs.drawnRenamed }

/-- The file of an entry is renamed to `.delivered`. -/
theorem Settled.rename (hs : Settled s) {id : String} (hid : own id) (hdrawn : id ∈ s.used)
    (hjson : t.disk.json = s.disk.json.erase id) (hrenamed : t.renamed = id :: s.renamed)
    (hack : t.acknowledged = s.acknowledged) (hused : t.used = s.used) : Within own s t where
  json k hk := by
    have hne : k ≠ id := fun heq => hk (heq ▸ hid)
    rw [hjson, get?_erase, if_neg hne]
  renamed k hk := by
    rw [hrenamed] at hk
    rcases mem_cons.mp hk with rfl | hk
    · exact .inl hid
    · exact .inr hk
  grows k hk := hrenamed ▸ mem_cons_of_mem _ hk
  used k hk := hused ▸ hk
  settled :=
    { gone := by
        intro k hk
        rw [hjson, get?_erase]
        split_ifs with heq
        · rfl
        · rw [hrenamed] at hk
          exact hs.gone k (mem_of_ne_of_mem heq hk)
      renamed := fun k hk => hrenamed ▸ mem_cons_of_mem _ (hs.renamed k (hack ▸ hk))
      drawn := by
        intro k hk
        rw [hjson, get?_erase] at hk
        split_ifs at hk with heq
        · cases hk
        · exact hused ▸ hs.drawn k hk
      drawnRenamed := by
        rw [hrenamed, hused]
        intro k hk
        rcases mem_cons.mp hk with rfl | hk
        · exact hdrawn
        · exact hs.drawnRenamed k hk }

end Frames

/-! ### Live calls -/

section Live
variable {s t : State π} {id : String}

theorem Owned.leave (hs : Owned s) (hw : Within (· = id) s t) (hlive : t.live = s.live.erase id)
    (hfree : ∀ i p, s.passes.get? i = some p → id ∉ p.phase.held) (hpasses : t.passes = s.passes) : Owned t := by
  apply hs.live_step hw hfree
  · intro k hk
    rw [hlive, get?_erase, if_neg hk]
  · exact hpasses
  · intro phase hphase
    rw [hlive, get?_erase, if_pos rfl] at hphase
    cases hphase

theorem Owned.setLive {phase : LivePhase π} (hs : Owned s) (hw : Within (· = id) s t)
    (hlive : t.live = s.live.set id phase) (hfree : ∀ i p, s.passes.get? i = some p → id ∉ p.phase.held)
    (hpasses : t.passes = s.passes) (hdrawn : id ∈ t.used) (hfits : phase.Fits t id) : Owned t := by
  apply hs.live_step hw hfree
  · intro k hk
    rw [hlive, get?_set_ne _ hk]
  · exact hpasses
  · intro phase' hphase
    rw [hlive, get?_set_self] at hphase
    cases hphase
    exact ⟨hdrawn, hfits⟩

theorem liveOp_owned {phase : LivePhase π} {fault : Option String} {now : Nat} (hs : Owned s)
    (hl : s.live.get? id = some phase) (h : liveOp id fault now s phase = some t) : Owned t := by
  have hfree : ∀ i p, s.passes.get? i = some p → id ∉ p.phase.held := fun i p => hs.apart id phase i p hl
  have hdrawn := hs.liveDrawn id phase hl
  have hfits := hs.live id phase hl
  -- A call that is over, whatever of its own it left behind.
  have hquiet : ∀ t : State π, t.disk.json = s.disk.json → t.renamed = s.renamed → t.acknowledged = s.acknowledged →
      t.used = s.used → Within (· = id) s t := fun t hj hr ha hu =>
    hs.quiet hj hr (fun k hk => .inl (ha ▸ hk)) fun k hk => hu ▸ hk
  match phase with
  | .writing file =>
    simp only [liveOp] at h
    split_ifs at h
    · cases h
      exact hs.leave (hquiet _ rfl rfl rfl rfl) rfl hfree rfl
    · cases h
      exact hs.setLive (hquiet _ rfl rfl rfl rfl) rfl hfree rfl hdrawn hfits
  | .naming =>
    simp only [liveOp] at h
    split at h
    · rename_i d hd
      cases h
      obtain ⟨hop, hsome⟩ := renameTmp_op hd
      exact hs.setLive (hs.fileOp rfl hdrawn hfits.2 hop rfl rfl rfl) rfl hfree rfl hdrawn hsome
    · cases h
      exact hs.leave (hquiet _ rfl rfl rfl rfl) rfl hfree rfl
  | .sending => cases h
  | .acking .rename sent =>
    rcases ackDelivery_rename fault hfits with ⟨error, hack⟩ | ⟨d', hack, hjson⟩
    · simp only [liveOp, hack] at h
      cases h
      exact hs.leave (hquiet _ rfl rfl rfl rfl) rfl hfree rfl
    · simp only [liveOp, hack] at h
      cases h
      exact hs.setLive (hs.rename rfl hdrawn hjson rfl rfl rfl) rfl hfree rfl hdrawn mem_cons_self
  | .acking .cleanup sent =>
    obtain ⟨d', hack, hjson, -⟩ := ackDelivery_cleanup id fault s.disk
    simp only [liveOp, hack] at h
    cases h
    refine hs.leave (hs.quiet ?_ ?_ ?_ ?_) ?_ hfree ?_
    · cases sent <;> exact hjson
    · cases sent <;> rfl
    · intro k hk
      cases sent with
      | false => exact .inl hk
      | true =>
        rcases mem_cons.mp hk with rfl | hk
        · exact .inr hfits
        · exact .inl hk
    · intro k hk
      cases sent <;> exact hk
    · cases sent <;> rfl
    · cases sent <;> rfl
  | .failing phase error =>
    have hop := failDelivery_op id error now fault s.disk phase
    have hkeeps := failDelivery_keeps error now fault phase hfits
    simp only [liveOp] at h
    split at h
    · rename_i d next heq
      rw [heq] at hop hkeeps
      cases h
      exact hs.setLive (hs.fileOp rfl hdrawn (hs.not_renamed hfits) hop rfl rfl rfl) rfl hfree rfl hdrawn hkeeps
    · rename_i d heq
      rw [heq] at hop
      cases h
      exact hs.leave (hs.fileOp rfl hdrawn (hs.not_renamed hfits) hop rfl rfl rfl) rfl hfree rfl

theorem settleLive_owned {outcome : SendOutcome} (hs : Owned s) (hl : s.live.get? id = some .sending) :
    Owned (settleLive id outcome s) := by
  have hfree : ∀ i p, s.passes.get? i = some p → id ∉ p.phase.held := fun i p => hs.apart id _ i p hl
  have hdrawn := hs.liveDrawn id _ hl
  have hfits : (s.disk.json.get? id).isSome := hs.live id _ hl
  cases outcome with
  | sent | aborted | incomplete | failed error =>
    exact hs.setLive (hs.quiet rfl rfl (fun k hk => .inl hk) fun k hk => hk) rfl hfree rfl hdrawn hfits

theorem enqueue_owned {file : QueueFile π} (hs : Owned s) (hid : id ∉ s.used) :
    Owned (({s with used := id :: s.used} : State π).setLive id (.writing file)) := by
  have hjson : s.disk.json.get? id = none := by
    by_contra h
    exact hid (hs.drawn id (isSome_iff_ne_none.mpr h))
  refine hs.setLive (hs.quiet rfl rfl (fun k hk => .inl hk) fun k hk => mem_cons_of_mem _ hk) rfl ?_ rfl
    mem_cons_self ⟨hjson, fun h => hid (hs.drawnRenamed id h)⟩
  intro i p hp hheld
  have := (hs.pass i p hp).present id hheld
  rw [hjson] at this
  cases this

end Live

/-! ### Recovery passes -/

@[simp] theorem entryIds_nil : entryIds ([] : List (QueuedDelivery π)) = [] := rfl

@[simp] theorem entryIds_cons (entry : QueuedDelivery π) (rest : List (QueuedDelivery π)) :
    entryIds (entry :: rest) = entry.id :: entryIds rest := rfl

@[simp] theorem entryIds_append (a b : List (QueuedDelivery π)) :
    entryIds (a ++ b) = entryIds a ++ entryIds b := map_append

/-- The entries that are deferred are those that remain. -/
theorem mem_deferred {entries : List (QueuedDelivery π)} {m : InsertionMap String (FailPhase π)} {id : String}
    (h : id ∈ (entries.foldl (fun m e => m.set e.id .read) m).keys) : id ∈ m.keys ∨ id ∈ entryIds entries := by
  induction entries generalizing m with
  | nil => exact .inl h
  | cons entry rest ih =>
    rcases ih h with h | h
    · obtain ⟨phase, hphase⟩ := (mem_keys _ _).mp h
      rcases eq_or_ne id entry.id with rfl | hne
      · simp
      · rw [get?_set_ne _ hne] at hphase
        exact .inl ((mem_keys _ _).mpr ⟨phase, hphase⟩)
    · right
      simp [h]

section Passes
variable {s t : State π} {i : Nat} {p p' : Pass π}

theorem Owned.endPass (hs : Owned s) : Owned (s.endPass i) := by
  refine hs.pass_step (t := s.endPass i) (i := i) (hs.quiet rfl rfl (fun k hk => .inl hk) fun k hk => hk) rfl ?_ ?_
  · intro j hj
    simp [State.endPass, get?_erase, hj]
  · intro p hp
    simp [State.endPass, get?_erase] at hp

theorem Owned.setPass (hs : Owned s) (hw : Within (s.Own i) s t) (hlive : t.live = s.live)
    (hpasses : t.passes = s.passes.set i p') (hfits : p'.phase.Fits t) (hown : ∀ id ∈ p'.phase.held, s.Own i id) :
    Owned t := by
  apply hs.pass_step hw hlive
  · intro j hj
    rw [hpasses, get?_set_ne _ hj]
  · intro q hq
    rw [hpasses, get?_set_self] at hq
    cases hq
    exact ⟨hfits, hown⟩

section
variable (hs : Owned s) (hp : s.passes.get? i = some p)
include hs hp

/-- A pass goes on with entries it has, and no file of the queue changes. -/
theorem Owned.quietPass (hjson : t.disk.json = s.disk.json) (hrenamed : t.renamed = s.renamed)
    (hused : t.used = s.used) (hlive : t.live = s.live) (hpasses : t.passes = s.passes.set i p')
    (hack : ∀ id ∈ t.acknowledged, id ∈ s.acknowledged ∨ id ∈ s.renamed)
    (hdistinct : (p'.phase.unread ++ p'.phase.held).Nodup) (hheld : ∀ id ∈ p'.phase.held, id ∈ p.phase.held)
    (hmarked : ∀ entry rest, p'.phase = .acking .cleanup entry rest → entry.id ∈ s.renamed) : Owned t := by
  refine hs.setPass (hs.quiet hjson hrenamed hack fun k hk => hused ▸ hk) hlive hpasses ⟨hdistinct, ?_, ?_⟩ ?_
  · intro id hid
    rw [hjson]
    exact (hs.pass i p hp).present id (hheld id hid)
  · intro entry rest hphase
    exact hrenamed ▸ hmarked entry rest hphase
  · intro id hid
    exact hs.own hp (hheld id hid)

/-- A pass changes the file of an entry it has, and goes on with those that still
have theirs. -/
theorem Owned.fileOpPass {id : String} (hid : id ∈ p.phase.held) (hop : FileOp id s.disk t.disk)
    (hrenamed : t.renamed = s.renamed) (hack : t.acknowledged = s.acknowledged) (hused : t.used = s.used)
    (hlive : t.live = s.live) (hpasses : t.passes = s.passes.set i p')
    (hdistinct : (p'.phase.unread ++ p'.phase.held).Nodup) (hheld : ∀ k ∈ p'.phase.held, k ∈ p.phase.held)
    (hkeeps : id ∈ p'.phase.held → (t.disk.json.get? id).isSome)
    (hmarked : ∀ entry rest, p'.phase ≠ .acking .cleanup entry rest) : Owned t := by
  have hpresent := (hs.pass i p hp).present
  refine hs.setPass ?_ hlive hpasses ⟨hdistinct, ?_, ?_⟩ ?_
  · exact hs.fileOp (hs.own hp hid) (hs.drawn id (hpresent id hid)) (hs.not_renamed (hpresent id hid)) hop hrenamed
      hack hused
  · intro k hk
    rcases eq_or_ne k id with rfl | hne
    · exact hkeeps hk
    · rw [hop.json_ne hne]
      exact hpresent k (hheld k hk)
  · intro entry rest hphase
    exact absurd hphase (hmarked entry rest)
  · intro k hk
    exact hs.own hp (hheld k hk)

theorem turn_owned {pending : List (QueuedDelivery π)} {now : Nat} (hphase : p.phase = .looping pending) :
    Owned (turn i now p s pending) := by
  have hdistinct := (hs.pass i p hp).distinct
  rw [hphase] at hdistinct
  cases pending with
  | nil => exact hs.endPass
  | cons entry rest =>
    -- The pass goes on with these entries or with some of them.
    have hnext : ∀ (t : State π) (p' : Pass π), t.disk = s.disk → t.renamed = s.renamed → t.used = s.used →
        t.live = s.live → t.passes = s.passes.set i p' → t.acknowledged = s.acknowledged →
        (p'.phase.unread ++ p'.phase.held).Nodup →
        (∀ id ∈ p'.phase.held, id ∈ entryIds (entry :: rest)) →
        (∀ e r, p'.phase ≠ .acking .cleanup e r) → Owned t := by
      intro t p' hd hr hu hl hps ha hn hsub hm
      refine hs.quietPass hp (by rw [hd]) hr hu hl hps (fun k hk => .inl (ha ▸ hk)) hn ?_
        fun e r h => absurd h (hm e r)
      intro id hid
      rw [hphase]
      exact hsub id hid
    simp only [turn]
    split_ifs with hdeadline hretries
    · refine hnext _ _ rfl rfl rfl rfl rfl rfl (InsertionMap.nodup _) ?_ (by simp)
      intro id hid
      exact (mem_deferred hid).resolve_left (by simp [InsertionMap.keys, EmptyCollection.emptyCollection, InsertionMap.empty])
    · exact hnext _ _ rfl rfl rfl rfl rfl rfl hdistinct (fun id hid => hid) (by simp)
    · split
      · exact hnext _ _ rfl rfl rfl rfl rfl rfl hdistinct.of_cons (fun id hid => mem_cons_of_mem _ hid) (by simp)
      · exact hnext _ _ rfl rfl rfl rfl rfl rfl hdistinct (fun id hid => hid) (by simp)

theorem afterError_owned {entry : QueuedDelivery π} {rest : List (QueuedDelivery π)} {error : String}
    (hheld : p.phase.held = entry.id :: entryIds rest) :
    Owned (afterError i p error entry rest s) := by
  have hdistinct : (entry.id :: entryIds rest).Nodup := by
    rw [← hheld]
    exact (hs.pass i p hp).distinct.of_append_right
  simp only [afterError]
  split_ifs
  · exact hs.quietPass hp rfl rfl rfl rfl rfl (fun k hk => .inl hk) hdistinct (fun id hid => hheld ▸ hid) (by simp)
  · exact hs.quietPass hp rfl rfl rfl rfl rfl (fun k hk => .inl hk) hdistinct (fun id hid => hheld ▸ hid) (by simp)

end

/-- An entry nobody else works on is nobody else's. -/
theorem Owned.own_of_apart (hs : Owned s) {id : String} (hjson : (s.disk.json.get? id).isSome)
    (hlive : s.liveHolds id = false) (hpass : s.passHolds i id = false) : s.Own i id := by
  constructor
  · cases hl : s.live.get? id with
    | none => rfl
    | some phase =>
      have hfits := hs.live id phase hl
      have hnone : s.disk.json.get? id = none := by
        match phase with
        | .writing _ | .naming => exact hfits.1
        | .acking .cleanup _ => exact hs.gone id hfits
        | .sending | .acking .rename _ | .failing _ _ => simp [State.liveHolds, hl, LivePhase.holds] at hlive
      rw [hnone] at hjson
      cases hjson
  · intro j q hj hq hid
    have hmem : (j, q) ∈ s.passes.entries := (get?_eq_some _ _ _).mp hq
    have := (List.any_eq_false.mp hpass) _ hmem
    simp [hj, hid] at this

theorem load_owned {fault : Option String} {now : Nat} {file : String} {files : List String}
    {entries : List (QueuedDelivery π)} (hs : Owned s) (hp : s.passes.get? i = some p)
    (hphase : p.phase = .loading (file :: files) entries) (hreads : ReadsApart (.pass i fault now) s) :
    Owned (load i fault p file files entries s) := by
  have hfits := hs.pass i p hp
  rw [hphase] at hfits
  have hdistinct : (file :: (files ++ entryIds entries)).Nodup := hfits.distinct
  have hown : ∀ id ∈ entryIds entries, s.Own i id := fun id hid => hs.own hp (by rw [hphase]; exact hid)
  simp only [load]
  split
  · rename_i entry hread
    obtain ⟨content, hcontent, hentry⟩ := map_eq_some_iff.mp hread
    have hid : entry.id = file := by rw [← hentry]
    have hjson : (s.disk.json.get? file).isSome := by simp [hcontent]
    have hfree : s.Own i file := by
      have h : s.liveHolds file = false ∧ s.passHolds i file = false := by
        simpa [ReadsApart, readsApart, hp, hphase] using hreads
      exact hs.own_of_apart hjson h.1 h.2
    rcases hnorm : normalizeLegacyQueuedDeliveryEntry entry with ⟨entry', migrated⟩
    have hid' : entry'.id = file := by
      rw [← hid, ← normalizeLegacy_id entry, hnorm]
    have hheld : ∀ id, id = file ∨ id ∈ entryIds entries →
        s.Own i id ∧ (s.disk.json.get? id).isSome := by
      rintro id (rfl | hid)
      · exact ⟨hfree, hjson⟩
      · exact ⟨hown id hid, hfits.present id hid⟩
    dsimp only
    split_ifs
    · refine hs.setPass (hs.quiet rfl rfl (fun k hk => .inl hk) fun k hk => hk) rfl rfl ⟨?_, ?_, by simp⟩ ?_
      · show (files ++ entry'.id :: entryIds entries).Nodup
        rw [hid']
        exact (perm_middle.nodup_iff).mpr hdistinct
      · intro id hmem
        exact (hheld id (by simpa [PassPhase.held, hid'] using hmem)).2
      · intro id hmem
        exact (hheld id (by simpa [PassPhase.held, hid'] using hmem)).1
    · refine hs.setPass (hs.quiet rfl rfl (fun k hk => .inl hk) fun k hk => hk) rfl rfl ⟨?_, ?_, by simp⟩ ?_
      · show (files ++ entryIds (entries ++ [entry'])).Nodup
        rw [entryIds_append, entryIds_cons, entryIds_nil, hid', ← append_assoc]
        exact (perm_append_singleton file _).nodup_iff.mpr hdistinct
      · intro id hmem
        exact (hheld id (by simpa [PassPhase.held, hid', or_comm] using hmem)).2
      · intro id hmem
        exact (hheld id (by simpa [PassPhase.held, hid', or_comm] using hmem)).1
  · exact hs.quietPass hp rfl rfl rfl rfl rfl (fun k hk => .inl hk) hdistinct.of_cons
      (fun id hid => by rw [hphase]; exact hid) (by simp)

section PassOps
variable {fault : Option String} {now : Nat} {entry : QueuedDelivery π} {rest : List (QueuedDelivery π)}

section
variable (hs : Owned s) (hp : s.passes.get? i = some p)
include hs hp

theorem sort_owned {entries : List (QueuedDelivery π)} {deadline : Nat} (hphase : p.phase = .loading [] entries) :
    Owned (s.setPass i {p with
      deadline
      phase := .looping (entries.insertionSort fun a b => a.enqueuedAt ≤ b.enqueuedAt)}) := by
  have hdistinct := (hs.pass i p hp).distinct
  rw [hphase] at hdistinct
  have hperm : (entryIds (entries.insertionSort fun a b => a.enqueuedAt ≤ b.enqueuedAt)).Perm (entryIds entries) :=
    (perm_insertionSort _ _).map _
  refine hs.quietPass hp rfl rfl rfl rfl rfl (fun k hk => .inl hk) (hperm.nodup_iff.mpr hdistinct) ?_ (by simp)
  intro id hid
  rw [hphase]
  exact hperm.mem_iff.mp hid

theorem migrate_owned {written : Bool} {files : List String}
    (hphase : p.phase = .migrating entry written files rest) (h : passOp i fault now s p = some t) : Owned t := by
  have hdistinct := (hs.pass i p hp).distinct
  simp only [hphase, PassPhase.unread, PassPhase.held] at hdistinct
  have hheld : p.phase.held = entry.id :: entryIds rest := by rw [hphase]; rfl
  have hsplit : (entry.id :: (files ++ entryIds rest)).Nodup := perm_middle.nodup_iff.mp hdistinct
  have hdropped : Owned (s.setPass i {p with phase := .loading files rest}) :=
    hs.quietPass hp rfl rfl rfl rfl rfl (fun k hk => .inl hk) hsplit.of_cons
      (fun id hid => hheld ▸ mem_cons_of_mem _ hid) (by simp)
  simp only [passOp, hphase] at h
  cases written with
  | false =>
    simp only at h
    split_ifs at h
    all_goals cases h
    · exact hdropped
    · exact hs.quietPass hp rfl rfl rfl rfl rfl (fun k hk => .inl hk) hdistinct (fun id hid => hheld ▸ hid) (by simp)
  | true =>
    simp only at h
    split at h
    all_goals cases h
    · rename_i d hd
      obtain ⟨hop, hsome⟩ := renameTmp_op hd
      refine hs.fileOpPass hp (hheld ▸ mem_cons_self) hop rfl rfl rfl rfl rfl ?_ ?_ (fun _ => hsome) (by simp)
      · show (files ++ entryIds (rest ++ [entry])).Nodup
        rw [entryIds_append, ← append_assoc]
        exact (perm_append_singleton entry.id _).nodup_iff.mpr hsplit
      · intro id hid
        rw [hheld]
        simpa [PassPhase.held, or_comm] using hid
    · exact hdropped

theorem ackPass_owned {phase : AckPhase} (hphase : p.phase = .acking phase entry rest)
    (h : passOp i fault now s p = some t) : Owned t := by
  have hfits := hs.pass i p hp
  rw [hphase] at hfits
  simp only [passOp, hphase] at h
  cases phase with
  | rename =>
    have hheld : p.phase.held = entry.id :: entryIds rest := by rw [hphase]; rfl
    have hjson := hfits.present entry.id mem_cons_self
    have hdistinct : (entry.id :: entryIds rest).Nodup := hfits.distinct
    rcases ackDelivery_rename fault hjson with ⟨error, hack⟩ | ⟨d', hack, hd'⟩
    · simp only [hack] at h
      cases h
      exact afterError_owned (s := s) hs hp hheld
    · simp only [hack] at h
      cases h
      have hw : Within (s.Own i) s ((s.acked entry.id true d').setPass i {p with phase := .acking .cleanup entry rest}) :=
        hs.rename (hs.own hp (hheld ▸ mem_cons_self)) (hs.drawn _ hjson) hd' rfl rfl rfl
      refine hs.setPass hw rfl rfl ⟨hdistinct.of_cons, ?_, ?_⟩ ?_
      · intro id hid
        have hne : id ≠ entry.id := fun heq => (nodup_cons.mp hdistinct).1 (heq ▸ hid)
        show (d'.json.get? id).isSome
        rw [hd', get?_erase, if_neg hne]
        exact hfits.present id (mem_cons_of_mem _ hid)
      · intro e r heq
        cases heq
        exact mem_cons_self
      · intro id hid
        exact hs.own hp (hheld ▸ mem_cons_of_mem _ hid)
  | cleanup =>
    have hheld : p.phase.held = entryIds rest := by rw [hphase]; rfl
    obtain ⟨d', hack, hjson, -⟩ := ackDelivery_cleanup entry.id fault s.disk
    simp only [hack] at h
    cases h
    refine hs.quietPass hp hjson rfl rfl rfl rfl ?_ hfits.distinct (fun id hid => hheld ▸ hid) (by simp)
    intro k hk
    rcases mem_cons.mp hk with rfl | hk
    · exact .inr (hfits.marked entry rest rfl)
    · exact .inl hk

theorem failPass_owned {phase : FailPhase π} {error : String} (hphase : p.phase = .failing phase error entry rest)
    (h : passOp i fault now s p = some t) : Owned t := by
  have hheld : p.phase.held = entry.id :: entryIds rest := by rw [hphase]; rfl
  have hmem : entry.id ∈ p.phase.held := hheld ▸ mem_cons_self
  have hdistinct : (entry.id :: entryIds rest).Nodup := by
    rw [← hheld]
    exact (hs.pass i p hp).distinct.of_append_right
  have hop := failDelivery_op entry.id error now fault s.disk phase
  have hkeeps := failDelivery_keeps error now fault phase ((hs.pass i p hp).present entry.id hmem)
  simp only [passOp, hphase] at h
  split at h
  all_goals
    rename_i heq
    rw [heq] at hop hkeeps
    cases h
  · exact hs.fileOpPass hp hmem hop rfl rfl rfl rfl rfl hdistinct (fun id hid => hheld ▸ hid) (fun _ => hkeeps) (by simp)
  · exact hs.fileOpPass hp hmem hop rfl rfl rfl rfl rfl hdistinct.of_cons
      (fun id hid => hheld ▸ mem_cons_of_mem _ hid) (fun _ => hkeeps) (by simp)

theorem movePass_owned (hphase : p.phase = .moving entry rest) (h : passOp i fault now s p = some t) : Owned t := by
  have hheld : p.phase.held = entry.id :: entryIds rest := by rw [hphase]; rfl
  have hdistinct : (entry.id :: entryIds rest).Nodup := by
    rw [← hheld]
    exact (hs.pass i p hp).distinct.of_append_right
  simp only [passOp, hphase] at h
  cases h
  refine hs.fileOpPass hp (hheld ▸ mem_cons_self) ?_ rfl rfl rfl rfl rfl hdistinct.of_cons
    (fun id hid => hheld ▸ mem_cons_of_mem _ hid) (fun hid => ?_) (by simp)
  · show FileOp entry.id s.disk (if fault.isSome then s.disk else (s.disk.renameFailed entry.id).getD s.disk)
    split_ifs
    · exact .refl _ _
    · cases hd : s.disk.renameFailed entry.id with
      | none => exact .refl _ _
      | some d => exact renameFailed_op hd
  · exact absurd hid (nodup_cons.mp hdistinct).1

theorem cleanPass_owned {markers files : List String} (hphase : p.phase = .cleaning markers files)
    (h : passOp i fault now s p = some t) : Owned t := by
  have hdistinct := (hs.pass i p hp).distinct
  rw [hphase] at hdistinct
  simp only [passOp, hphase] at h
  cases markers with
  | nil =>
    cases h
    exact hs.quietPass hp rfl rfl rfl rfl rfl (fun k hk => .inl hk) hdistinct (by simp [PassPhase.held]) (by simp)
  | cons marker markers =>
    cases h
    refine hs.quietPass hp ?_ rfl rfl rfl rfl (fun k hk => .inl hk) hdistinct (by simp [PassPhase.held]) (by simp)
    show (if fault.isSome then s.disk else s.disk.unlinkDelivered marker).json = s.disk.json
    split_ifs <;> rfl

theorem passOp_owned (hreads : ReadsApart (.pass i fault now) s) (h : passOp i fault now s p = some t) : Owned t := by
  cases hphase : p.phase with
  | listing | sending entry rest => simp [passOp, hphase] at h
  | cleaning markers files => exact cleanPass_owned hs hp hphase h
  | migrating entry written files rest => exact migrate_owned hs hp hphase h
  | acking phase entry rest => exact ackPass_owned hs hp hphase h
  | failing phase error entry rest => exact failPass_owned hs hp hphase h
  | moving entry rest => exact movePass_owned hs hp hphase h
  | loading files entries =>
    cases files with
    | cons file files =>
      simp only [passOp, hphase] at h
      cases h
      exact load_owned hs hp hphase hreads
    | nil =>
      cases entries with
      | nil =>
        simp only [passOp, hphase] at h
        cases h
        exact hs.endPass
      | cons entry rest =>
        simp only [passOp, hphase] at h
        cases h
        exact sort_owned hs hp hphase
  | looping pending =>
    simp only [passOp, hphase] at h
    cases h
    exact turn_owned hs hp hphase
  | deferring fails =>
    simp only [passOp, hphase] at h
    split_ifs at h
    cases h
    exact hs.endPass

end

end PassOps

section
variable (hs : Owned s) (hp : s.passes.get? i = some p)
include hs hp

theorem settlePass_owned {error : Option String} (h : settlePass i error s p = some t) : Owned t := by
  unfold settlePass at h
  split at h
  · rename_i entry rest hphase
    split at h
    all_goals cases h
    · have hdistinct := (hs.pass i p hp).distinct
      rw [hphase] at hdistinct
      exact hs.quietPass hp rfl rfl rfl rfl rfl (fun k hk => .inl hk) hdistinct
        (fun id hid => by rw [hphase]; exact hid) (by simp)
    · exact afterError_owned hs hp (by simp [hphase, PassPhase.held])
  · cases h

theorem listed_owned {fault : Option String} {markers files : List String}
    (h : listed i fault markers files s p = some t) : Owned t := by
  unfold listed at h
  split at h
  · split_ifs at h with hfault hperm
    all_goals cases h
    · exact hs.endPass
    · have hnodup : files.Nodup := hperm.1.nodup_iff.mpr (InsertionMap.nodup _)
      exact hs.quietPass hp rfl rfl rfl rfl rfl (fun k hk => .inl hk) (by simpa [PassPhase.unread, PassPhase.held])
        (by simp [PassPhase.held]) (by simp)
  · cases h

theorem deferredOp_owned {id : String} {fault : Option String} {now : Nat}
    (h : deferredOp i id fault now s p = some t) : Owned t := by
  unfold deferredOp at h
  split at h
  · rename_i fails hphase
    obtain ⟨phase, hget, h⟩ := map_eq_some_iff.mp h
    have hid : id ∈ fails.keys := (mem_keys _ _).mpr ⟨phase, hget⟩
    have hheld : id ∈ p.phase.held := by rw [hphase]; exact hid
    have hjson := (hs.pass i p hp).present id hheld
    have hop := failDelivery_op id "recovery time budget exceeded" now fault s.disk phase
    have hkeeps := failDelivery_keeps "recovery time budget exceeded" now fault phase hjson
    split at h
    all_goals
      rename_i heq
      rw [heq] at hop hkeeps
      cases h
    · refine hs.fileOpPass hp hheld hop rfl rfl rfl rfl rfl (InsertionMap.nodup _) ?_ (fun _ => hkeeps) (by simp)
      intro k hk
      rw [hphase]
      rcases eq_or_ne k id with rfl | hne
      · exact hid
      · obtain ⟨v, hv⟩ := (mem_keys _ _).mp hk
        rw [get?_set_ne _ hne] at hv
        exact (mem_keys _ _).mpr ⟨v, hv⟩
    · refine hs.fileOpPass hp hheld hop rfl rfl rfl rfl rfl (InsertionMap.nodup _) ?_ (fun _ => hkeeps) (by simp)
      intro k hk
      rw [hphase]
      obtain ⟨v, hv⟩ := (mem_keys _ _).mp hk
      rw [get?_erase] at hv
      split_ifs at hv
      exact (mem_keys _ _).mpr ⟨v, hv⟩
  · cases h

end

end Passes

/-! ### Whole runs -/

theorem start_owned (d : Disk π) : Owned (State.start d) where
  gone := by simp [State.start]
  renamed := by simp [State.start]
  drawn id hid := by
    obtain ⟨file, hfile⟩ := isSome_iff_exists.mp hid
    have := (mem_keys _ _).mpr ⟨file, hfile⟩
    simp only [State.start] at this ⊢
    simp [this]
  drawnRenamed := by simp [State.start]
  liveDrawn := by simp [State.start]
  live := by simp [State.start]
  pass := by simp [State.start]
  apart := by simp [State.start]
  alone := by simp [State.start]

theorem crash_owned {s : State π} (hs : Owned s) :
    Owned {s with disk := s.disk.leftBehind, live := ∅, passes := ∅} where
  gone := hs.gone
  renamed := hs.renamed
  drawn := hs.drawn
  drawnRenamed := hs.drawnRenamed
  liveDrawn := by simp
  live := by simp
  pass := by simp
  apart := by simp
  alone := by simp

theorem step_owned (e : Event π) (s t : State π) (hs : Owned s) (hreads : ReadsApart e s) (h : step e s = some t) :
    Owned t := by
  cases e with
  | enqueue id payload now =>
    simp only [step] at h
    split_ifs at h with hid
    cases h
    exact enqueue_owned hs hid
  | live id fault now =>
    obtain ⟨phase, hl, h⟩ := bind_eq_some_iff.mp h
    exact liveOp_owned hs hl h
  | settleLive id outcome =>
    simp only [step] at h
    split at h
    · rename_i hl
      cases h
      exact settleLive_owned hs hl
    · cases h
  | recover i maxRecoveryMs =>
    simp only [step] at h
    split at h
    · cases h
      refine hs.setPass (hs.quiet rfl rfl (fun k hk => .inl hk) fun k hk => hk) rfl rfl ⟨?_, ?_, ?_⟩ ?_ <;>
        simp [PassPhase.unread, PassPhase.held]
    · cases h
  | list i fault markers files =>
    obtain ⟨p, hp, h⟩ := bind_eq_some_iff.mp h
    exact listed_owned hs hp h
  | pass i fault now =>
    obtain ⟨p, hp, h⟩ := bind_eq_some_iff.mp h
    exact passOp_owned hs hp hreads h
  | settlePass i error =>
    obtain ⟨p, hp, h⟩ := bind_eq_some_iff.mp h
    exact settlePass_owned hs hp h
  | deferred i id fault now =>
    obtain ⟨p, hp, h⟩ := bind_eq_some_iff.mp h
    exact deferredOp_owned hs hp h
  | crash =>
    cases h
    exact crash_owned hs

/-- Nobody works on an entry of another, whatever the order of the steps, as long
as no pass reads the file of an entry somebody works on. -/
theorem run_owned {d : Disk π} {events : List (Event π)} {s : State π}
    (hc : Machine.Within step ReadsApart events (State.start d)) (hr : Machine.run step events (State.start d) = some s) :
    Owned s :=
  Machine.run_within_invariant step step_owned events (start_owned d) hc hr

end OpenClaw.Outbound
