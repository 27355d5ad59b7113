import Mathlib.Data.List.Dedup
import OpenClaw.Reply.FollowupSteps

/-! What a collected batch mixes.

In collect mode a turn of the drain checks whether the items answer to one
place, and if they do hands them on as one run. The check compares the four
routing fields joined by `|`, and the run is that of the last item. So a batch
keeps its items apart by conversation exactly as far as the joined keys do, and
its prompts run with what the last sender may do. -/
namespace OpenClaw.Reply
open Foundation List

/-- Where a run's answer goes: no account is the empty one, and a thread is its text. -/
structure Conversation where
  channel : Option String
  target : Option String
  account : String
  thread : String
  deriving DecidableEq

namespace FollowupRun

def conversation (f : FollowupRun) : Conversation where
  channel := f.originatingChannel
  target := f.originatingTo
  account := f.originatingAccountId.getD ""
  thread := (f.originatingThreadId.map ThreadId.toText).getD ""

end FollowupRun

namespace RunOptions

def IsOwner (run : RunOptions) : Prop := run.senderIsOwner = some true

def MayElevate (run : RunOptions) : Prop := run.bashElevated.any (·.allowed) = true

end RunOptions

/-- The merged run goes where every item came from, and grants no prompt more
than its own run did. -/
structure MergedSoundly (items : List Queued) (merged : FollowupRun) : Prop where
  routed : ∀ item ∈ items, item.followup.conversation = merged.conversation
  owner : merged.run.IsOwner → ∀ item ∈ items, item.followup.run.IsOwner
  elevated : merged.run.MayElevate → ∀ item ∈ items, item.followup.run.MayElevate

/-- A channel or recipient that is there is not the empty text. -/
def RoutingFilled (item : Queued) : Prop :=
  item.followup.originatingChannel ≠ some "" ∧ item.followup.originatingTo ≠ some ""

/-- The joined keys of the items break at the same places. -/
def SameBreaks (a b : Queued) : Prop :=
  ((filled a.followup.originatingChannel).getD "").length = ((filled b.followup.originatingChannel).getD "").length ∧
  ((filled a.followup.originatingTo).getD "").length = ((filled b.followup.originatingTo).getD "").length ∧
  ((filled a.followup.originatingAccountId).getD "").length =
    ((filled b.followup.originatingAccountId).getD "").length

/-- The last item may do no more than any other. -/
def LastLeastTrusted (items : List Queued) : Prop :=
  ∀ last ∈ items.getLast?, ∀ item ∈ items,
    (last.followup.run.IsOwner → item.followup.run.IsOwner) ∧
    (last.followup.run.MayElevate → item.followup.run.MayElevate)

/-! ### Fields -/

theorem filled_getD (s : Option String) : (filled s).getD "" = s.getD "" := by
  cases s with
  | none => rfl
  | some t => by_cases h : t = "" <;> simp [filled, Option.filter, h]

theorem filledThread_toText (t : Option ThreadId) :
    ((filledThread t).map ThreadId.toText).getD "" = (t.map ThreadId.toText).getD "" := by
  cases t with
  | none => rfl
  | some t => by_cases h : t = .text "" <;> simp [filledThread, Option.filter, h, ThreadId.toText]

/-- The first filled value of a field is the value of one of the items. -/
theorem exists_findSome?_eq {α β : Type*} {items : List α} (hitems : items ≠ []) (field : α → Option β) :
    ∃ a ∈ items, items.findSome? field = field a := by
  cases h : items.findSome? field with
  | none =>
    obtain ⟨a, ha⟩ := exists_mem_of_ne_nil items hitems
    exact ⟨a, ha, (findSome?_eq_none_iff.mp h a ha).symm⟩
  | some b =>
    obtain ⟨a, ha, hb⟩ := exists_of_findSome?_eq_some h
    exact ⟨a, ha, hb.symm⟩

/-- Texts joined by a separator and broken at the same places have the same parts. -/
theorem joined_inj {a b c d a' b' c' d' : String} (ha : a.length = a'.length) (hb : b.length = b'.length)
    (hc : c.length = c'.length) (h : "|".intercalate [a, b, c, d] = "|".intercalate [a', b', c', d']) :
    a = a' ∧ b = b' ∧ c = c' ∧ d = d' := by
  have hl := congrArg String.toList h
  simp only [String.intercalate_cons_cons, String.intercalate_singleton, String.toList_append, append_assoc] at hl
  obtain ⟨h₁, hl⟩ := append_inj hl ha
  obtain ⟨h₂, hl⟩ := append_inj (append_cancel_left hl) hb
  obtain ⟨h₃, hl⟩ := append_inj (append_cancel_left hl) hc
  exact ⟨String.toList_inj.mp h₁, String.toList_inj.mp h₂, String.toList_inj.mp h₃,
    String.toList_inj.mp (append_cancel_left hl)⟩

/-! ### What the check passes -/

/-- Items that pass the check have no key, or all the same. -/
theorem hasCrossChannelItems_false {α : Type*} {items : List α} {resolveKey : α → ChannelKey}
    (h : hasCrossChannelItems items resolveKey = false) :
    (∀ a ∈ items, (resolveKey a).cross = false) ∧
      ((∀ a ∈ items, (resolveKey a).key = none) ∨ ∃ key, ∀ a ∈ items, (resolveKey a).key = some key) := by
  simp only [hasCrossChannelItems, Bool.or_eq_false_iff, Bool.and_eq_false_iff] at h
  obtain ⟨hcross, hkeys⟩ := h
  refine ⟨fun a ha => by simpa using any_eq_false.mp hcross a ha, ?_⟩
  rcases hkeys with hnone | ⟨hall, hone⟩
  · exact .inl (filterMap_eq_nil_iff.mp (by simpa using hnone))
  · have hkey : ∀ a ∈ items, ∃ key, (resolveKey a).key = some key := fun a ha =>
      Option.ne_none_iff_exists'.mp (by simpa using any_eq_false.mp hall a ha)
    rcases hd : (items.filterMap fun a => (resolveKey a).key).dedup with _ | ⟨key, _ | ⟨_, _⟩⟩
    · exact .inl (filterMap_eq_nil_iff.mp ((dedup_eq_nil _).mp hd))
    · refine .inr ⟨key, fun a ha => ?_⟩
      obtain ⟨other, hother⟩ := hkey a ha
      have hmem : other ∈ (items.filterMap fun a => (resolveKey a).key).dedup :=
        mem_dedup.mpr (mem_filterMap.mpr ⟨a, ha, hother⟩)
      rw [hd, mem_singleton] at hmem
      rw [hother, hmem]
    · rw [hd] at hone
      simp at hone

theorem resolveCrossChannelKey_none {routable : String → Bool} {item : Queued}
    (hcross : (resolveCrossChannelKey routable item).cross = false)
    (hkey : (resolveCrossChannelKey routable item).key = none) :
    filled item.followup.originatingChannel = none ∧ filled item.followup.originatingTo = none ∧
      filled item.followup.originatingAccountId = none ∧ filledThread item.followup.originatingThreadId = none := by
  unfold resolveCrossChannelKey at hcross hkey
  split at hcross <;> simp_all
  split at hcross <;> simp_all

theorem resolveCrossChannelKey_some {routable : String → Bool} {item : Queued} {key : String}
    (hkey : (resolveCrossChannelKey routable item).key = some key) :
    ∃ channel target, filled item.followup.originatingChannel = some channel ∧
      filled item.followup.originatingTo = some target ∧
      key = "|".intercalate [channel, target, (filled item.followup.originatingAccountId).getD "",
        ((filledThread item.followup.originatingThreadId).map ThreadId.toText).getD ""] := by
  unfold resolveCrossChannelKey at hkey
  split at hkey <;> simp_all
  split at hkey <;> simp_all

/-! ### The batch -/

theorem filled_eq_self {s : Option String} : filled s = s ↔ s ≠ some "" := by
  cases s with
  | none => simp [filled]
  | some t => by_cases h : t = "" <;> simp [filled, Option.filter, h]

theorem filled_ne (s : Option String) : filled s ≠ some "" := by
  simp [filled, Option.filter_eq_some_iff]

/-- A merged run goes to the conversation of its items, if they share one whose
channel and recipient are filled. -/
theorem conversation_merged {items : List Queued} (hitems : items ≠ []) (prompt : String) (run : RunOptions)
    {c : Conversation} (hc : ∀ item ∈ items, item.followup.conversation = c) (hfilled : ∀ item ∈ items, RoutingFilled item) :
    (resolveOriginRoutingMetadata items prompt run).conversation = c := by
  obtain ⟨a₁, h₁, he₁⟩ := exists_findSome?_eq hitems fun item => filled item.followup.originatingChannel
  obtain ⟨a₂, h₂, he₂⟩ := exists_findSome?_eq hitems fun item => filled item.followup.originatingTo
  obtain ⟨a₃, h₃, he₃⟩ := exists_findSome?_eq hitems fun item => filled item.followup.originatingAccountId
  obtain ⟨a₄, h₄, he₄⟩ := exists_findSome?_eq hitems fun item => filledThread item.followup.originatingThreadId
  rw [filled_eq_self.mpr (hfilled a₁ h₁).1] at he₁
  rw [filled_eq_self.mpr (hfilled a₂ h₂).2] at he₂
  simp only [FollowupRun.conversation, resolveOriginRoutingMetadata, he₁, he₂, he₃, he₄, filled_getD,
    filledThread_toText]
  have hc₁ := hc a₁ h₁
  have hc₂ := hc a₂ h₂
  have hc₃ := hc a₃ h₃
  have hc₄ := hc a₄ h₄
  cases c
  simp only [FollowupRun.conversation, Conversation.mk.injEq] at hc₁ hc₂ hc₃ hc₄
  rw [Conversation.mk.injEq]
  exact ⟨hc₁.1, hc₂.2.1, hc₃.2.2.1, hc₄.2.2.2⟩

/-- Items that pass the check share a conversation, if their joined keys break at
the same places and their channels and recipients are filled. -/
theorem share_of_checked {routable : String → Bool} {items : List Queued}
    (hcheck : hasCrossChannelItems items (resolveCrossChannelKey routable) = false)
    (hfilled : ∀ item ∈ items, RoutingFilled item) (hbreaks : ∀ a ∈ items, ∀ b ∈ items, SameBreaks a b) :
    ∀ a ∈ items, ∀ b ∈ items, a.followup.conversation = b.followup.conversation := by
  intro a ha b hb
  obtain ⟨hcross, hnone | ⟨key, hkey⟩⟩ := hasCrossChannelItems_false hcheck
  · have hempty : ∀ item ∈ items, item.followup.conversation = ⟨none, none, "", ""⟩ := fun item hi => by
      obtain ⟨hc, ht, hacc, hth⟩ := resolveCrossChannelKey_none (hcross item hi) (hnone item hi)
      rw [filled_eq_self.mpr (hfilled item hi).1] at hc
      rw [filled_eq_self.mpr (hfilled item hi).2] at ht
      rw [FollowupRun.conversation, hc, ht, ← filled_getD, hacc, ← filledThread_toText, hth]
      rfl
    rw [hempty a ha, hempty b hb]
  · obtain ⟨c, t, hc, ht, hjoin⟩ := resolveCrossChannelKey_some (hkey a ha)
    obtain ⟨c', t', hc', ht', hjoin'⟩ := resolveCrossChannelKey_some (hkey b hb)
    obtain ⟨h₁, h₂, h₃⟩ := hbreaks a ha b hb
    rw [hc, hc', Option.getD_some, Option.getD_some] at h₁
    rw [ht, ht', Option.getD_some, Option.getD_some] at h₂
    obtain ⟨rfl, rfl, hacc, hth⟩ := joined_inj h₁ h₂ h₃ (hjoin.symm.trans hjoin')
    rw [filled_getD, filled_getD] at hacc
    rw [filledThread_toText, filledThread_toText] at hth
    rw [filled_eq_self.mpr (hfilled a ha).1] at hc
    rw [filled_eq_self.mpr (hfilled b hb).1] at hc'
    rw [filled_eq_self.mpr (hfilled a ha).2] at ht
    rw [filled_eq_self.mpr (hfilled b hb).2] at ht'
    simp only [FollowupRun.conversation, hc, hc', ht, ht', hacc, hth]

theorem routed_iff {routable : String → Bool} {items : List Queued} (hitems : items ≠ [])
    (hcheck : hasCrossChannelItems items (resolveCrossChannelKey routable) = false) (prompt : String) (run : RunOptions) :
    (∀ item ∈ items, item.followup.conversation = (resolveOriginRoutingMetadata items prompt run).conversation) ↔
      (∀ item ∈ items, RoutingFilled item) ∧ ∀ a ∈ items, ∀ b ∈ items, SameBreaks a b := by
  constructor
  · intro h
    refine ⟨fun item hi => ⟨fun he => ?_, fun he => ?_⟩, fun a ha b hb => ?_⟩
    · obtain ⟨a, -, ha⟩ := exists_findSome?_eq hitems fun item => filled item.followup.originatingChannel
      exact filled_ne _ (ha.symm.trans ((congrArg Conversation.channel (h item hi)).symm.trans he))
    · obtain ⟨a, -, ha⟩ := exists_findSome?_eq hitems fun item => filled item.followup.originatingTo
      exact filled_ne _ (ha.symm.trans ((congrArg Conversation.target (h item hi)).symm.trans he))
    · have hsame := (h a ha).trans (h b hb).symm
      simp only [FollowupRun.conversation, Conversation.mk.injEq] at hsame
      simp only [SameBreaks, filled_getD, hsame.1, hsame.2.1, hsame.2.2.1, and_self]
  · rintro ⟨hfilled, hbreaks⟩ item hi
    have hshare := share_of_checked hcheck hfilled hbreaks
    exact (conversation_merged hitems prompt run (fun other ho => hshare other ho item hi) hfilled).symm

theorem mergedSoundly_iff {routable : String → Bool} {items : List Queued} {last : Queued}
    (hlast : items.getLast? = some last)
    (hcheck : hasCrossChannelItems items (resolveCrossChannelKey routable) = false) (prompt : String) :
    MergedSoundly items (resolveOriginRoutingMetadata items prompt last.followup.run) ↔
      (∀ item ∈ items, RoutingFilled item) ∧ (∀ a ∈ items, ∀ b ∈ items, SameBreaks a b) ∧ LastLeastTrusted items := by
  have hitems : items ≠ [] := by
    rintro rfl
    cases hlast
  rw [← and_assoc, ← routed_iff hitems hcheck prompt last.followup.run]
  constructor
  · rintro ⟨routed, owner, elevated⟩
    refine ⟨routed, fun other hother item hi => ?_⟩
    obtain rfl := Option.some.inj (hlast.symm.trans hother)
    exact ⟨fun h => owner h item hi, fun h => elevated h item hi⟩
  · rintro ⟨routed, htrust⟩
    exact ⟨routed, fun h item hi => (htrust last hlast item hi).1 h, fun h item hi => (htrust last hlast item hi).2 h⟩

/-! ### A turn of the drain -/

variable {φ : Type*}

theorem drainFinally_calls (s : State φ) (q : FollowupQueueState) (d : Drain φ) :
    (drainFinally s q d).calls = s.calls := by
  rw [drainFinally_eq]
  split_ifs <;> rfl

/-- A turn that collects a batch has checked its items, and runs the last one's settings. -/
theorem collect_turn {routable : String → Bool} {s s' : State φ} {q : FollowupQueueState} {d : Drain φ}
    (hq : s.queue = some q) (hd : s.drain = some d) (hpoint : d.point = .debounce) (hmode : q.mode = .collect)
    (hturn : (step routable).run [.resume, .resume] s = some s') {call : Call φ} (hcall : s'.calls = s.calls ++ [call])
    {items : List Queued} {summary : Option QueueSummary} (hcontent : call.content = .collect items summary) :
    items = q.items ∧ hasCrossChannelItems items (resolveCrossChannelKey routable) = false ∧
      ∀ last, items.getLast? = some last →
        call.followup = resolveOriginRoutingMetadata items call.content.prompt last.followup.run := by
  obtain ⟨mid, hmid, hend⟩ := (Machine.run_cons_some _).mp hturn
  obtain ⟨out, hout, hnil⟩ := (Machine.run_cons_some _).mp hend
  cases hnil
  obtain rfl : collectTurn routable s q d = mid := by
    simpa only [step, hq, hd, resumeDrain, hpoint, hmode, if_true, Option.some.injEq] using hmid
  by_cases hcheck : (d.forceIndividualCollect || hasCrossChannelItems q.items (resolveCrossChannelKey routable)) = true
  · -- one item by itself, or none: no batch is called
    simp only [collectTurn, hcheck, if_true] at hout
    cases hitems : q.items with
    | nil =>
      simp only [hitems, step, waitAt, resumeDrain, Option.some.injEq] at hout
      rw [← hout, drainFinally_calls] at hcall
      simp at hcall
    | cons item rest =>
      simp only [hitems, step, callFollowup, waitAt, resumeDrain, Option.some.injEq] at hout
      rw [← hout] at hcall
      cases append_cancel_left hcall
      cases hcontent
  · rw [Bool.not_eq_true] at hcheck
    simp only [collectTurn, hcheck, Bool.false_eq_true, if_false, step, waitAt, resumeDrain, Option.some.injEq] at hout
    subst hout
    unfold collectBatch at hcall
    split at hcall
    · rw [drainFinally_calls] at hcall
      simp at hcall
    · rename_i run hrun
      cases append_cancel_left hcall
      cases hcontent
      refine ⟨rfl, (Bool.or_eq_false_iff.mp hcheck).2, fun last hlast => ?_⟩
      rw [hlast] at hrun
      cases hrun
      rfl

/-- A collected batch keeps to one conversation and raises no prompt's authority
exactly when no channel or recipient is an empty text, the joined keys of the
items break at the same places and the last item is trusted with nothing that
another is not. -/
theorem collected_batch_sound_iff {routable : String → Bool} {s s' : State φ} {q : FollowupQueueState} {d : Drain φ}
    (hq : s.queue = some q) (hd : s.drain = some d) (hpoint : d.point = .debounce) (hmode : q.mode = .collect)
    (hturn : (step routable).run [.resume, .resume] s = some s') {call : Call φ} (hcall : s'.calls = s.calls ++ [call])
    {items : List Queued} {summary : Option QueueSummary} (hcontent : call.content = .collect items summary)
    (hseveral : 2 ≤ items.length) :
    MergedSoundly items call.followup ↔
      (∀ item ∈ items, RoutingFilled item) ∧ (∀ a ∈ items, ∀ b ∈ items, SameBreaks a b) ∧ LastLeastTrusted items := by
  obtain ⟨-, hcheck, hmerged⟩ := collect_turn hq hd hpoint hmode hturn hcall hcontent
  cases hlast : items.getLast? with
  | none =>
    rw [getLast?_eq_none_iff.mp hlast] at hseveral
    simp at hseveral
  | some last =>
    rw [hmerged last hlast]
    exact mergedSoundly_iff hlast hcheck _

/-! ### Two senders -/

/-- A prompt in one channel, from a sender who is an owner or not. -/
def sentBy (owner : Bool) (id : Nat) : Queued where
  id := id
  followup :=
    { prompt := "p", originatingChannel := some "c", originatingTo := some "t"
      run := {plainOptions with senderIsOwner := some owner} }

/-- A stranger's prompt, and another's. -/
def twoSenders (owner : Bool) : List Queued := [sentBy false 0, sentBy owner 1]

/-- The drain is about to take them. -/
def twoWaiting (owner : Bool) : State Unit where
  queue := some ⟨⟨twoSenders owner, 20, .summarize, 0, []⟩, true, .collect, none⟩
  drain := some ⟨(), false, .debounce⟩

theorem collected_batch_sound_twoSenders :
    ∃ s' call, (step fun _ => true).run [.resume, .resume] (twoWaiting false) = some s' ∧ s'.calls = [call] ∧
      call.content = .collect (twoSenders false) none ∧ MergedSoundly (twoSenders false) call.followup := by
  refine ⟨_, _, rfl, rfl, rfl, ?_⟩
  refine (@collected_batch_sound_iff _ (fun _ => true) (twoWaiting false) _ _ _ rfl rfl rfl rfl rfl _ rfl _ _ rfl
    (by decide)).mpr ⟨?_, ?_, ?_⟩
  · unfold RoutingFilled
    decide
  · unfold SameBreaks
    decide
  · intro last hlast item _
    cases hlast
    exact ⟨nofun, nofun⟩

/-- A stranger's prompt runs with the authority of the owner who wrote after. -/
theorem collected_batch_raises_authority :
    ∃ s' call, (step fun _ => true).run [.resume, .resume] (twoWaiting true) = some s' ∧ s'.calls = [call] ∧
      call.content = .collect (twoSenders true) none ∧ ¬ MergedSoundly (twoSenders true) call.followup := by
  refine ⟨_, _, rfl, rfl, rfl, fun h => ?_⟩
  have := h.owner rfl _ mem_cons_self
  revert this
  unfold RunOptions.IsOwner
  decide

end OpenClaw.Reply
