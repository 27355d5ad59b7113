import OpenClaw.Gateway.NodeRegistry

/-! Nodes that connect again.

As long as the connection that is unregistered is the newest of its node, or the
node has no session any more, and carried every invoke still pending for the node,
the registry keeps to connections: a node has the session of its newest connection
until that one ends (`Tracked`), the end of a connection settles the invokes sent
over it and no others, and every invoke is settled once (`Accounted`). The code
goes by node instead: the late end of an old connection takes the session of the
new one with it, and its invokes. -/
namespace OpenClaw.Gateway
open Foundation List InsertionMap

variable {π : Type*}

/-! ### Sessions -/

/-- The newest session of a node. -/
def Registry.latest (s : Registry π) (nodeId : String) : Option NodeSession :=
  s.registered.find? fun session => session.nodeId = nodeId

/-- The connection of the session has not been unregistered. -/
def stillOpen (unregistered : List String) (session : NodeSession) : Bool := session.connId ∉ unregistered

structure Tracked (s : Registry π) : Prop where
  conns : (s.registered.map NodeSession.connId).Nodup
  ended : ∀ connId ∈ s.unregistered, connId ∈ s.registered.map NodeSession.connId
  named : ∀ session ∈ s.registered, session.nodeId ≠ ""
  byConn : ∀ connId, s.nodesByConn.get? connId =
    ((s.registered.find? fun session => session.connId = connId).filter (stillOpen s.unregistered)).map NodeSession.nodeId
  byId : ∀ nodeId, s.get nodeId = (s.latest nodeId).filter (stillOpen s.unregistered)

/-- All that is pending for the node, and its session if it has one, is of the
connection. -/
def Registry.ownedBy (connId nodeId : String) (s : Registry π) : Bool :=
  (s.get nodeId).all (fun session => session.connId = connId) &&
    s.sent.all fun i => i.nodeId ≠ nodeId || (s.pendingInvokes.get? i.id).isNone || i.connId = connId

/-- If the step ends a connection, its node has nothing of another. -/
def unregistersOwn : RegistryEvent π → Registry π → Bool
  | .unregister connId, s => (s.nodesByConn.get? connId).all fun nodeId => s.ownedBy connId nodeId
  | _, _ => true

abbrev UnregistersOwn (e : RegistryEvent π) (s : Registry π) : Prop := unregistersOwn e s = true

theorem unregister_cases (connId : String) (s : Registry π) :
    (s.unregister connId).2 = s ∨ ∃ nodeId, s.nodesByConn.get? connId = some nodeId ∧ nodeId ≠ "" ∧
      (s.unregister connId).2 = {s with
        nodesByConn := s.nodesByConn.erase connId
        nodesById := s.nodesById.erase nodeId
        pendingInvokes := s.pendingInvokes.keepValues fun p => p.nodeId ≠ nodeId
        unregistered := connId :: s.unregistered
        settled := s.settled ++ (s.pendingOf nodeId).map fun p => (p.1, .disconnect connId p.2.command)} := by
  unfold Registry.unregister
  split
  · exact .inl rfl
  · rename_i nodeId hconn
    split_ifs with hempty
    · exact .inl rfl
    · exact .inr ⟨nodeId, hconn, hempty, rfl⟩

variable {s : Registry π} {connId : String}

theorem Tracked.add (hs : Tracked s) (session : NodeSession) (hname : session.nodeId ≠ "")
    (hfresh : session.connId ∉ s.registered.map NodeSession.connId) : Tracked {s with
      nodesById := s.nodesById.set session.nodeId session
      nodesByConn := s.nodesByConn.set session.connId session.nodeId
      registered := session :: s.registered} := by
  have hopen : stillOpen s.unregistered session = true := decide_eq_true fun h => hfresh (hs.ended _ h)
  refine ⟨nodup_cons.mpr ⟨hfresh, hs.conns⟩, ?_, ?_, ?_, ?_⟩
  · intro connId hconn
    exact mem_cons_of_mem _ (hs.ended connId hconn)
  · intro other hother
    rcases mem_cons.mp hother with rfl | hother
    · exact hname
    · exact hs.named other hother
  · intro connId
    rw [get?_set, find?_cons]
    rcases eq_or_ne connId session.connId with rfl | hne
    · simp [Option.filter, hopen]
    · simpa [hne, hne.symm] using hs.byConn connId
  · intro nodeId
    show (s.nodesById.set session.nodeId session).get? nodeId =
      ((session :: s.registered).find? fun x => x.nodeId = nodeId).filter _
    rw [get?_set, find?_cons]
    rcases eq_or_ne nodeId session.nodeId with rfl | hne
    · simp [Option.filter, hopen]
    · simpa [hne, hne.symm, Registry.get, Registry.latest] using hs.byId nodeId

/-- A connection has one session. -/
theorem Tracked.session_unique (hs : Tracked s) {a b : NodeSession} (ha : a ∈ s.registered)
    (hb : b ∈ s.registered) (h : a.connId = b.connId) : a = b :=
  inj_on_of_nodup_map hs.conns ha hb h

theorem Tracked.unregister (hs : Tracked s) (hown : UnregistersOwn (.unregister connId) s) :
    Tracked (s.unregister connId).2 := by
  obtain hsame | ⟨nodeId, hconn, -, hnext⟩ := unregister_cases connId s
  · rw [hsame]
    exact hs
  -- The session of the connection, not unregistered so far.
  have hfound := hs.byConn connId
  rw [hconn, eq_comm, Option.map_eq_some_iff] at hfound
  obtain ⟨session, hsession, rfl⟩ := hfound
  obtain ⟨hfind, hopen⟩ := Option.filter_eq_some_iff.mp hsession
  have hmem := mem_of_find?_eq_some hfind
  obtain rfl : session.connId = connId := by simpa using find?_some hfind
  have hnewest : ∀ other, s.get session.nodeId = some other → other.connId = session.connId := by
    have h : s.ownedBy session.connId session.nodeId = true := by
      simpa [UnregistersOwn, unregistersOwn, hconn] using hown
    simp only [Registry.ownedBy, Bool.and_eq_true] at h
    intro other hother
    simpa [hother] using h.1
  rw [hnext]
  refine ⟨hs.conns, ?_, hs.named, ?_, ?_⟩
  · intro connId' h
    rcases mem_cons.mp h with rfl | h
    · exact mem_map_of_mem hmem
    · exact hs.ended connId' h
  · intro connId'
    show (s.nodesByConn.erase session.connId).get? connId' = _
    rw [get?_erase]
    split_ifs with heq
    · subst heq
      simp [hfind, Option.filter, stillOpen]
    · rw [hs.byConn connId']
      cases hfind' : s.registered.find? fun x => x.connId = connId' with
      | none => rfl
      | some other =>
        have hother : other.connId = connId' := by simpa using find?_some hfind'
        simp [Option.filter, stillOpen, hother, heq]
  · intro nodeId'
    have hbyId : s.nodesById.get? nodeId' = (s.latest nodeId').filter (stillOpen s.unregistered) := hs.byId nodeId'
    show (s.nodesById.erase session.nodeId).get? nodeId' =
      (s.latest nodeId').filter (stillOpen (session.connId :: s.unregistered))
    rw [get?_erase]
    cases hlatest : s.latest nodeId' with
    | none =>
      rw [hlatest] at hbyId
      simp [hbyId]
    | some other =>
      have hother : other.nodeId = nodeId' := by simpa using find?_some hlatest
      rw [hlatest] at hbyId
      split_ifs with heq
      · subst heq
        -- The newest session of the node has ended, now or before.
        by_cases hended : other.connId ∈ s.unregistered
        · simp [Option.filter, stillOpen, hended]
        · have hget : s.get session.nodeId = some other := by
            show s.nodesById.get? session.nodeId = some other
            rw [hbyId]
            simp [Option.filter, stillOpen, hended]
          simp [Option.filter, stillOpen, hnewest other hget]
      · have hne : other.connId ≠ session.connId := by
          intro h
          have hsame := hs.session_unique (mem_of_find?_eq_some hlatest) hmem h
          exact heq (by rw [← hother, hsame])
        rw [hbyId]
        simp [Option.filter, stillOpen, hne]

/-! ### Invokes -/

/-- The report is for the invoke. -/
def answers (i : SentInvoke) (report : InvokeReport π) : Bool := report.id = i.id && report.nodeId = i.nodeId

/-- What settled the invoke was meant for it: the first report for it, its timer, or
the end of the connection it went over. -/
def Settlement.Due (s : Registry π) (i : SentInvoke) : Settlement π → Prop
  | .result report => s.arrived.find? (answers i) = some report
  | .timeout => True
  | .disconnect connId command => connId = i.connId ∧ command = i.command

structure Accounted (s : Registry π) : Prop where
  requests : (s.sent.map SentInvoke.id).Nodup
  pending : ∀ id p, s.pendingInvokes.get? id = some p →
    ∃ i ∈ s.sent, i.id = id ∧ i.nodeId = p.nodeId ∧ i.command = p.command
  settledOnce : (s.settled.map Prod.fst).Nodup
  settledOr : ∀ i ∈ s.sent, i.id ∈ s.settled.map Prod.fst ↔ s.pendingInvokes.get? i.id = none
  due : ∀ p ∈ s.settled, ∃ i ∈ s.sent, i.id = p.1 ∧ p.2.Due s i
  waiting : ∀ i ∈ s.sent, (s.pendingInvokes.get? i.id).isSome → s.arrived.find? (answers i) = none
  heard : ∀ report ∈ s.arrived, report.id ∈ s.sent.map SentInvoke.id

/-- An invoke that was sent is known by its id. -/
theorem Accounted.sent_unique (hs : Accounted s) {a b : SentInvoke} (ha : a ∈ s.sent)
    (hb : b ∈ s.sent) (h : a.id = b.id) : a = b :=
  inj_on_of_nodup_map hs.requests ha hb h

/-- A set of pending invokes is settled at once, each by something meant for it. -/
theorem Accounted.settleAll {t : Registry π} (hs : Accounted s) (batch : List (String × Settlement π))
    (hbatch : (batch.map Prod.fst).Nodup) (hdue : ∀ p ∈ batch, ∃ i ∈ s.sent, i.id = p.1 ∧ p.2.Due t i)
    (hpending : ∀ id, t.pendingInvokes.get? id = if id ∈ batch.map Prod.fst then none else s.pendingInvokes.get? id)
    (hopen : ∀ id ∈ batch.map Prod.fst, (s.pendingInvokes.get? id).isSome)
    (harrived : ∀ i ∈ s.sent, i.id ∉ batch.map Prod.fst → t.arrived.find? (answers i) = s.arrived.find? (answers i) ∨
      s.pendingInvokes.get? i.id = none ∧ ∀ report, s.arrived.find? (answers i) = some report →
        t.arrived.find? (answers i) = some report)
    (hheard : ∀ report ∈ t.arrived, report.id ∈ s.sent.map SentInvoke.id)
    (hsent : t.sent = s.sent) (hsettled : t.settled = s.settled ++ batch) : Accounted t where
  requests := hsent ▸ hs.requests
  pending id p hp := by
    rw [hpending] at hp
    split_ifs at hp
    rw [hsent]
    exact hs.pending id p hp
  settledOnce := by
    rw [hsettled, map_append]
    refine nodup_append.mpr ⟨hs.settledOnce, hbatch, ?_⟩
    rintro id hid _ hid' rfl
    obtain ⟨p, hp⟩ := Option.isSome_iff_exists.mp (hopen id hid')
    obtain ⟨i, hi, rfl, -⟩ := hs.pending id p hp
    have hnone := (hs.settledOr i hi).mp hid
    rw [hp] at hnone
    cases hnone
  settledOr i hi := by
    rw [hsent] at hi
    rw [hsettled, map_append, mem_append, hpending, hs.settledOr i hi]
    split_ifs with h <;> simp [h]
  due p hp := by
    rw [hsettled] at hp
    rw [hsent]
    rcases mem_append.mp hp with hp | hp
    · obtain ⟨i, hi, hid, hdue⟩ := hs.due p hp
      refine ⟨i, hi, hid, ?_⟩
      have hnot : i.id ∉ batch.map Prod.fst := by
        intro h
        have hnone := (hs.settledOr i hi).mp (hid ▸ mem_map_of_mem hp)
        have := hopen _ h
        rw [hnone] at this
        cases this
      match hp2 : p.2 with
      | .result report =>
        rw [hp2] at hdue
        rcases harrived i hi hnot with h | ⟨-, h⟩
        · exact h.trans hdue
        · exact h report hdue
      | .timeout => trivial
      | .disconnect connId command => rwa [hp2] at hdue
    · exact hdue p hp
  waiting i hi hp := by
    rw [hsent] at hi
    rw [hpending] at hp
    split_ifs at hp with h
    · cases hp
    · rcases harrived i hi h with heq | ⟨hnone, -⟩
      · rw [heq]
        exact hs.waiting i hi hp
      · rw [hnone] at hp
        cases hp
  heard report hreport := by
    rw [hsent]
    exact hheard report hreport

theorem Accounted.register (hs : Accounted s) (client : Client) (remoteIp : Option String)
    (now : Nat) : Accounted (s.register client remoteIp now) :=
  ⟨hs.requests, hs.pending, hs.settledOnce, hs.settledOr, hs.due, hs.waiting, hs.heard⟩

theorem mem_pendingOf {nodeId id : String} {p : PendingInvoke} :
    (id, p) ∈ s.pendingOf nodeId ↔ s.pendingInvokes.get? id = some p ∧ p.nodeId = nodeId := by
  simp [Registry.pendingOf, get?_eq_some]

theorem Accounted.unregister (hs : Accounted s) (hown : UnregistersOwn (.unregister connId) s) :
    Accounted (s.unregister connId).2 := by
  obtain hsame | ⟨nodeId, hconn, -, hnext⟩ := unregister_cases connId s
  · rw [hsame]
    exact hs
  have hcarried : ∀ i ∈ s.sent, i.nodeId = nodeId → (s.pendingInvokes.get? i.id).isSome → i.connId = connId := by
    have h : s.ownedBy connId nodeId = true := by simpa [UnregistersOwn, unregistersOwn, hconn] using hown
    simp only [Registry.ownedBy, Bool.and_eq_true, all_eq_true] at h
    intro i hi hnode hpending
    have := h.2 i hi
    simp only [hnode, Option.isNone_iff_eq_none, Bool.or_eq_true, decide_eq_true_eq] at this
    rcases this with (h | h) | h
    · simp at h
    · rw [h] at hpending
      cases hpending
    · exact h
  have hkeys : ((s.pendingOf nodeId).map fun p => (p.1, (Settlement.disconnect connId p.2.command : Settlement π))).map
      Prod.fst = (s.pendingOf nodeId).map Prod.fst := by simp
  rw [hnext]
  refine hs.settleAll ((s.pendingOf nodeId).map fun p => (p.1, .disconnect connId p.2.command)) ?_ ?_ ?_ ?_
    (fun i _ _ => .inl rfl) hs.heard rfl rfl
  · rw [hkeys]
    exact s.pendingInvokes.nodup.sublist (filter_sublist.map Prod.fst)
  · rintro q hq
    obtain ⟨⟨id, p⟩, hp, rfl⟩ := mem_map.mp hq
    obtain ⟨hget, hnode⟩ := mem_pendingOf.mp hp
    obtain ⟨i, hi, rfl, hinode, hcommand⟩ := hs.pending id p hget
    exact ⟨i, hi, rfl, (hcarried i hi (hinode.trans hnode) (by simp [hget])).symm, hcommand.symm⟩
  · intro id
    rw [hkeys, get?_keepValues]
    cases hget : s.pendingInvokes.get? id with
    | none => simp
    | some p =>
      by_cases hnode : p.nodeId = nodeId
      · have hmem : id ∈ (s.pendingOf nodeId).map Prod.fst :=
          mem_map.mpr ⟨(id, p), mem_pendingOf.mpr ⟨hget, hnode⟩, rfl⟩
        simp [hmem, Option.filter, hnode]
      · have hmem : id ∉ (s.pendingOf nodeId).map Prod.fst := by
          intro h
          obtain ⟨⟨id', p'⟩, hp', rfl⟩ := mem_map.mp h
          obtain ⟨hget', hnode'⟩ := mem_pendingOf.mp hp'
          rw [hget] at hget'
          cases hget'
          exact hnode hnode'
        simp [hmem, Option.filter, hnode]
  · intro id hid
    rw [hkeys] at hid
    obtain ⟨⟨id', p⟩, hp, rfl⟩ := mem_map.mp hid
    simp [(mem_pendingOf.mp hp).1]

theorem Accounted.timeout (hs : Accounted s) {id : String} {p : PendingInvoke}
    (hp : s.pendingInvokes.get? id = some p) : Accounted (s.settle id .timeout) := by
  obtain ⟨i, hi, rfl, -⟩ := hs.pending id p hp
  refine hs.settleAll [(i.id, .timeout)] (nodup_singleton _) ?_ ?_ ?_ (fun i _ _ => .inl rfl) hs.heard
    rfl rfl
  · simpa using ⟨i, hi, rfl, trivial⟩
  · intro id
    simp [Registry.settle, get?_erase]
  · simp [hp]

theorem find?_concat {i : SentInvoke} {arrived : List (InvokeReport π)} {report : InvokeReport π} :
    (arrived ++ [report]).find? (answers i) = (arrived.find? (answers i)).or (if answers i report then some report else none) := by
  rw [find?_append, find?_singleton]

theorem Accounted.report (hs : Accounted s) (report : InvokeReport π) :
    Accounted (s.handleInvokeResult report).2 := by
  have hheard : report.id ∈ s.sent.map SentInvoke.id →
      ∀ r ∈ s.arrived ++ [report], r.id ∈ s.sent.map SentInvoke.id := by
    intro hid r hr
    rcases mem_append.mp hr with hr | hr
    · exact hs.heard r hr
    · rwa [mem_singleton.mp hr]
  -- A report that settles nothing is for an invoke that is settled, or for another node.
  have hignored : (∀ i ∈ s.sent, i.id = report.id → s.pendingInvokes.get? i.id = none ∨ i.nodeId ≠ report.nodeId) →
      Accounted (s.arrive report) := by
    intro hnot
    unfold Registry.arrive
    split_ifs with hid
    · refine hs.settleAll [] nodup_nil (by simp) (by simp) (by simp) ?_ (hheard hid) rfl (by simp)
      intro i hi _
      simp only [find?_concat]
      by_cases hanswers : answers i report = true
      · right
        simp only [answers, Bool.and_eq_true, decide_eq_true_eq] at hanswers
        refine ⟨(hnot i hi hanswers.1.symm).resolve_right fun h => h hanswers.2.symm, ?_⟩
        intro r hr
        simp [hr]
      · left
        simp [hanswers]
    · exact hs
  unfold Registry.handleInvokeResult
  split
  · rename_i hnone
    refine hignored fun i hi heq => .inl (heq ▸ hnone)
  · rename_i p hp
    obtain ⟨i, hi, hid, hnode, -⟩ := hs.pending _ p hp
    split_ifs with hother
    · refine hignored fun j hj heq => .inr ?_
      rwa [hs.sent_unique hj hi (heq.trans hid.symm), hnode]
    · have hmem : report.id ∈ s.sent.map SentInvoke.id := hid ▸ mem_map_of_mem hi
      have hnodes : p.nodeId = report.nodeId := by simpa using hother
      simp only [Registry.arrive, if_pos hmem]
      refine hs.settleAll [(report.id, .result report)] (nodup_singleton _) ?_ ?_ ?_ ?_ (hheard hmem) rfl
        rfl
      · have hfirst := hs.waiting i hi (by simp [hid, hp])
        have hanswers : answers i report = true := by simp [answers, hid, hnode, hnodes]
        have hdue : (s.arrived ++ [report]).find? (answers i) = some report := by
          rw [find?_concat, hfirst, if_pos hanswers]
          rfl
        simpa using ⟨i, hi, hid, hdue⟩
      · intro id
        simp [Registry.settle, get?_erase]
      · simp [hp]
      · intro j hj hne
        left
        have hnot : answers j report = false := by
          have : report.id ≠ j.id := fun h => hne (by simp [h])
          simp [answers, this]
        show (s.arrived ++ [report]).find? (answers j) = _
        rw [find?_concat, hnot]
        simp

theorem Accounted.invoke (hs : Accounted s) {requestId : String} (nodeId command : String) (sends : Bool)
    (hfresh : requestId ∉ s.sent.map SentInvoke.id) : Accounted (s.invoke requestId nodeId command sends).2 := by
  unfold Registry.invoke
  split
  · exact hs
  · rename_i node hnode
    split_ifs
    · have hold : ∀ i ∈ s.sent, i.id ≠ requestId := fun i hi h => hfresh (h ▸ mem_map_of_mem hi)
      have hunsettled : requestId ∉ s.settled.map Prod.fst := by
        intro h
        obtain ⟨q, hq, heq⟩ := mem_map.mp h
        obtain ⟨i, hi, hid, -⟩ := hs.due q hq
        exact hold i hi (hid.trans heq)
      refine ⟨?_, ?_, hs.settledOnce, ?_, ?_, ?_, ?_⟩
      · simp only [map_append, map_cons, map_nil]
        exact (perm_append_singleton _ _).nodup_iff.mpr (nodup_cons.mpr ⟨hfresh, hs.requests⟩)
      · intro id p hp
        rcases eq_or_ne id requestId with rfl | hne
        · rw [get?_set_self] at hp
          cases hp
          exact ⟨⟨id, nodeId, command, node.connId⟩, by simp, rfl, rfl, rfl⟩
        · rw [get?_set_ne _ hne] at hp
          obtain ⟨i, hi, h⟩ := hs.pending id p hp
          exact ⟨i, mem_append_left _ hi, h⟩
      · intro i hi
        rcases mem_append.mp hi with hi | hi
        · rw [get?_set_ne _ (hold i hi)]
          exact hs.settledOr i hi
        · obtain rfl := mem_singleton.mp hi
          simpa using hunsettled
      · intro q hq
        obtain ⟨i, hi, hid, hdue⟩ := hs.due q hq
        refine ⟨i, mem_append_left _ hi, hid, ?_⟩
        exact hdue
      · intro i hi hp
        rcases mem_append.mp hi with hi | hi
        · rw [get?_set_ne _ (hold i hi)] at hp
          exact hs.waiting i hi hp
        · obtain rfl := mem_singleton.mp hi
          refine find?_eq_none.mpr fun r hr h => ?_
          simp only [answers, Bool.and_eq_true, decide_eq_true_eq] at h
          exact hfresh (h.1 ▸ hs.heard r hr)
      · intro r hr
        simp only [map_append, mem_append]
        exact .inl (hs.heard r hr)
    · exact hs

/-! ### Runs -/

/-- A pending invoke went over a connection that is still open. -/
structure Linked (s : Registry π) : Prop extends Tracked s, Accounted s where
  carried : ∀ i ∈ s.sent, (s.pendingInvokes.get? i.id).isSome →
    ∃ session ∈ s.registered, session.connId = i.connId ∧ session.nodeId = i.nodeId ∧ session.connId ∉ s.unregistered

/-- The connection of a pending invoke leads to its node. -/
theorem Linked.conn_of_pending (hs : Linked s) {i : SentInvoke} (hi : i ∈ s.sent)
    (hp : (s.pendingInvokes.get? i.id).isSome) : s.nodesByConn.get? i.connId = some i.nodeId := by
  obtain ⟨session, hsession, hconn, hnode, hopen⟩ := hs.carried i hi hp
  have hfind : (s.registered.find? fun x => x.connId = i.connId) = some session := by
    cases h : s.registered.find? fun x => x.connId = i.connId with
    | none =>
      have := find?_eq_none.mp h session hsession
      simp [hconn] at this
    | some other =>
      have hother : other.connId = i.connId := by simpa using find?_some h
      rw [hs.session_unique (mem_of_find?_eq_some h) hsession (hother.trans hconn.symm)]
  rw [hs.byConn, hfind]
  simp [Option.filter, stillOpen, hopen, hnode]

/-- The end of a connection settles the pending invokes that went over it. -/
theorem Linked.unregister_settles (hs : Linked s) (hown : UnregistersOwn (.unregister connId) s) :
    ∃ rejected, (s.unregister connId).2.settled = s.settled ++ rejected ∧ ∀ id how, (id, how) ∈ rejected ↔
      ∃ i ∈ s.sent, i.id = id ∧ i.connId = connId ∧ (s.pendingInvokes.get? id).isSome ∧
        how = .disconnect connId i.command := by
  cases hconn : s.nodesByConn.get? connId with
  | none =>
    refine ⟨[], by simp [Registry.unregister, hconn], ?_⟩
    intro id how
    simp only [not_mem_nil, false_iff]
    rintro ⟨i, hi, rfl, rfl, hp, -⟩
    rw [hs.conn_of_pending hi hp] at hconn
    cases hconn
  | some nodeId =>
    obtain hsame | ⟨nodeId', hconn', hname, hnext⟩ := unregister_cases connId s
    · -- A session has the name of a node.
      exfalso
      have hfound := hs.byConn connId
      rw [hconn, eq_comm, Option.map_eq_some_iff] at hfound
      obtain ⟨session, hsession, rfl⟩ := hfound
      obtain ⟨hfind, hopen⟩ := Option.filter_eq_some_iff.mp hsession
      have hname := hs.named session (mem_of_find?_eq_some hfind)
      have hended : connId ∈ s.unregistered := by
        rw [← hsame]
        simp [Registry.unregister, hconn, hname]
      obtain rfl : session.connId = connId := by simpa using find?_some hfind
      simp [stillOpen, hended] at hopen
    · rw [hconn] at hconn'
      cases hconn'
      refine ⟨_, by rw [hnext], ?_⟩
      intro id how
      simp only [mem_map, Prod.exists, Prod.mk.injEq]
      constructor
      · rintro ⟨_, p, hp, rfl, rfl⟩
        obtain ⟨hget, hnode⟩ := mem_pendingOf.mp hp
        obtain ⟨i, hi, rfl, hinode, hcommand⟩ := hs.pending _ p hget
        have hconnId : i.connId = connId := by
          have h : s.ownedBy connId nodeId = true := by simpa [UnregistersOwn, unregistersOwn, hconn] using hown
          simp only [Registry.ownedBy, Bool.and_eq_true, all_eq_true] at h
          simpa [hinode.trans hnode, hget] using h.2 i hi
        exact ⟨i, hi, rfl, hconnId, by simp [hget], by rw [hcommand]⟩
      · rintro ⟨i, hi, rfl, rfl, hp, rfl⟩
        obtain ⟨p, hget⟩ := Option.isSome_iff_exists.mp hp
        obtain ⟨j, hj, hid, hnode, hcommand⟩ := hs.pending _ p hget
        obtain rfl := hs.sent_unique hj hi hid
        have hlink := hs.conn_of_pending hi hp
        rw [hconn] at hlink
        cases hlink
        exact ⟨_, p, mem_pendingOf.mpr ⟨hget, hnode.symm⟩, rfl, by rw [hcommand]⟩

theorem step_linked (e : RegistryEvent π) (s t : Registry π) (hs : Linked s) (hown : UnregistersOwn e s)
    (h : registryStep e s = some t) : Linked t := by
  cases e with
  | register client remoteIp now =>
    simp only [registryStep] at h
    split_ifs at h with hfresh
    cases h
    refine ⟨hs.add (nodeSession client remoteIp now) client.connect.nodeId_ne hfresh,
      hs.toAccounted.register client remoteIp now, ?_⟩
    intro i hi hp
    obtain ⟨session, hsession, h⟩ := hs.carried i hi hp
    exact ⟨session, mem_cons_of_mem _ hsession, h⟩
  | unregister connId =>
    cases h
    refine ⟨hs.toTracked.unregister hown, hs.toAccounted.unregister hown, ?_⟩
    obtain hsame | ⟨nodeId, hconn, -, hnext⟩ := unregister_cases connId s
    · rw [hsame]
      exact hs.carried
    · rw [hnext]
      intro i hi hp
      rw [get?_keepValues] at hp
      obtain ⟨p, hp⟩ := Option.isSome_iff_exists.mp hp
      obtain ⟨hget, hnode⟩ := Option.filter_eq_some_iff.mp hp
      obtain ⟨session, hsession, hconn', hnode', hopen⟩ := hs.carried i hi (by simp [hget])
      refine ⟨session, hsession, hconn', hnode', ?_⟩
      rw [mem_cons, not_or]
      refine ⟨fun heq => ?_, hopen⟩
      have hlink := hs.conn_of_pending hi (by simp [hget])
      rw [← hconn', heq, hconn] at hlink
      obtain ⟨j, hj, hid, hjnode, -⟩ := hs.pending _ p hget
      obtain rfl := hs.sent_unique hj hi hid
      simp [← hjnode, Option.some.inj hlink] at hnode
  | invoke requestId nodeId command sends =>
    simp only [registryStep] at h
    split_ifs at h with hfresh
    cases h
    have haccounted := hs.toAccounted.invoke nodeId command sends hfresh
    cases hnode : s.nodesById.get? nodeId with
    | none =>
      simp only [Registry.invoke, hnode]
      exact hs
    | some node =>
      cases sends with
      | false =>
        simp only [Registry.invoke, hnode]
        exact hs
      | true =>
        simp only [Registry.invoke, hnode, if_true] at haccounted ⊢
        have hget : (s.latest nodeId).filter (stillOpen s.unregistered) = some node := (hs.byId nodeId).symm.trans hnode
        obtain ⟨hlatest, hopen⟩ := Option.filter_eq_some_iff.mp hget
        refine ⟨⟨hs.conns, hs.ended, hs.named, hs.byConn, hs.byId⟩, haccounted, ?_⟩
        intro i hi hp
        rcases mem_append.mp hi with hi | hi
        · have hne : i.id ≠ requestId := fun heq => hfresh (heq ▸ mem_map_of_mem hi)
          rw [get?_set_ne _ hne] at hp
          exact hs.carried i hi hp
        · obtain rfl := mem_singleton.mp hi
          exact ⟨node, mem_of_find?_eq_some hlatest, rfl, by simpa using find?_some hlatest,
            by simpa [stillOpen] using hopen⟩
  | result report =>
    cases h
    have hframe : ∃ pending arrived settled, (s.handleInvokeResult report).2 =
        {s with pendingInvokes := pending, arrived := arrived, settled := settled} ∧
        ∀ id, (pending.get? id).isSome → (s.pendingInvokes.get? id).isSome := by
      unfold Registry.handleInvokeResult Registry.arrive
      split
      · split_ifs
        · exact ⟨_, _, _, rfl, fun _ h => h⟩
        · exact ⟨s.pendingInvokes, s.arrived, s.settled, rfl, fun _ h => h⟩
      · have herase : ∀ id, ((s.pendingInvokes.erase report.id).get? id).isSome →
            (s.pendingInvokes.get? id).isSome := by
          intro id hid
          rw [get?_erase] at hid
          split_ifs at hid
          · cases hid
          · exact hid
        split_ifs
        · exact ⟨_, _, _, rfl, fun _ h => h⟩
        · exact ⟨s.pendingInvokes, s.arrived, s.settled, rfl, fun _ h => h⟩
        · exact ⟨_, _, _, rfl, herase⟩
        · exact ⟨_, _, _, rfl, herase⟩
    have haccounted := hs.toAccounted.report report
    obtain ⟨pending, arrived, settled, hnext, hpending⟩ := hframe
    rw [hnext] at haccounted ⊢
    exact ⟨⟨hs.conns, hs.ended, hs.named, hs.byConn, hs.byId⟩, haccounted,
      fun i hi hp => hs.carried i hi (hpending _ hp)⟩
  | timeout requestId =>
    obtain ⟨p, hp, rfl⟩ := Option.map_eq_some_iff.mp h
    refine ⟨⟨hs.conns, hs.ended, hs.named, hs.byConn, hs.byId⟩, hs.toAccounted.timeout hp, ?_⟩
    intro i hi hpending
    rw [Registry.settle, get?_erase] at hpending
    split_ifs at hpending
    · cases hpending
    · exact hs.carried i hi hpending

theorem empty_linked : Linked ({} : Registry π) := by
  constructor
  · constructor <;> simp [Registry.get, Registry.latest]
  · constructor <;> simp
  · simp

/-- A node has the session of its newest connection until that one ends; the end of
a connection settles the invokes sent over it and no others; and an invoke is
pending, with its timer, or settled once, by the first report for it, its timer or
the end of its own connection. -/
theorem reconnects_keep_apart {events : List (RegistryEvent π)} {s : Registry π}
    (hc : registryStep.Within UnregistersOwn events {}) (hr : registryStep.run events {} = some s) :
    (∀ nodeId, s.get nodeId = (s.latest nodeId).filter (stillOpen s.unregistered)) ∧
    (∀ connId, UnregistersOwn (.unregister connId) s →
      ∃ rejected, (s.unregister connId).2.settled = s.settled ++ rejected ∧ ∀ id how, (id, how) ∈ rejected ↔
        ∃ i ∈ s.sent, i.id = id ∧ i.connId = connId ∧ (s.pendingInvokes.get? id).isSome ∧
          how = .disconnect connId i.command) ∧
    ∀ i ∈ s.sent,
      ((s.pendingInvokes.get? i.id).isSome ∧ i.id ∉ s.settled.map Prod.fst ∧
        ∃ t, registryStep (.timeout i.id) s = some t) ∨
      (s.pendingInvokes.get? i.id = none ∧ (s.settled.map Prod.fst).count i.id = 1 ∧
        ∃ how, (i.id, how) ∈ s.settled ∧ how.Due s i) := by
  have hs : Linked s := Machine.run_within_invariant registryStep step_linked events empty_linked hc hr
  refine ⟨hs.byId, fun connId hown => hs.unregister_settles hown, fun i hi => ?_⟩
  cases hp : s.pendingInvokes.get? i.id with
  | some p =>
    refine .inl ⟨rfl, fun hsettled => ?_, _, by rw [registryStep, hp]; rfl⟩
    have hnone := (hs.settledOr i hi).mp hsettled
    rw [hp] at hnone
    cases hnone
  | none =>
    have hsettled := (hs.settledOr i hi).mpr hp
    refine .inr ⟨rfl, count_eq_one_of_mem hs.settledOnce hsettled, ?_⟩
    obtain ⟨⟨id, how⟩, hmem, rfl⟩ := mem_map.mp hsettled
    obtain ⟨j, hj, hid, hdue⟩ := hs.due _ hmem
    rw [hs.sent_unique hj hi hid] at hdue
    exact ⟨how, hmem, hdue⟩

/-- A client of node `n`. -/
def nodeClient (connId : String) : Client :=
  ⟨connId, {deviceId := some "n", clientId := "node-host", clientMode := "node", platform := "linux", version := "1"}⟩

/-- A node connects again once its first connection has ended. -/
def reconnectRun : List (RegistryEvent Unit) :=
  [.register (nodeClient "c1") none 0, .invoke "r1" "n" "system.run" true, .unregister "c1",
    .register (nodeClient "c2") none 1, .invoke "r2" "n" "system.run" true, .result {id := "r2", nodeId := "n", ok := true},
    .invoke "r3" "n" "system.run" true]

theorem reconnect_keeps_apart : ∃ s, registryStep.run reconnectRun {} = some s ∧
    s.settled.map Prod.fst = ["r1", "r2"] ∧
    (∀ nodeId, s.get nodeId = (s.latest nodeId).filter (stillOpen s.unregistered)) := by
  obtain ⟨s, hs, hv⟩ := Option.map_eq_some_iff.mp (show (registryStep.run reconnectRun {}).map
    (fun s => s.settled.map Prod.fst) = some ["r1", "r2"] by decide)
  exact ⟨s, hs, hv, (reconnects_keep_apart (by decide) hs).1⟩

/-- The old connection ends after the node has connected again. -/
def lateEndRun : List (RegistryEvent Unit) :=
  [.register (nodeClient "c1") none 0, .register (nodeClient "c2") none 1, .invoke "r" "n" "system.run" true,
    .unregister "c1"]

/-- The node has no session then, though its newest connection has not ended, and the
invoke sent over that one is rejected. -/
theorem late_end_takes_session : ∃ s, registryStep.run lateEndRun {} = some s ∧ (s.get "n").isNone ∧
    (s.latest "n").map NodeSession.connId = some "c2" ∧ s.unregistered = ["c1"] ∧
    s.sent = [⟨"r", "n", "system.run", "c2"⟩] ∧ s.settled = [("r", .disconnect "c1" "system.run")] := by
  have hrun : (registryStep.run lateEndRun {}).any (fun s => (s.get "n").isNone ∧
      (s.latest "n").map NodeSession.connId = some "c2" ∧ s.unregistered = ["c1"] ∧
      s.sent = [⟨"r", "n", "system.run", "c2"⟩] ∧ s.settled = [("r", .disconnect "c1" "system.run")]) = true := by
    decide
  obtain ⟨s, hs, hv⟩ := (Option.any_eq_true _ _).mp hrun
  exact ⟨s, hs, of_decide_eq_true hv⟩

end OpenClaw.Gateway
