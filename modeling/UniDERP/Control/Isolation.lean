import UniDERP.Control.Observability
import UniDERP.Control.Freshness

namespace UniDERP

def DB.reported (db : DB) (id : String) : Option Observation :=
  (db.observations.get? id).filter fun o =>
    (db.nodes.get? id).any fun n => o.reportInstance = n.instanceID

def DB.ownEntries (db : DB) (actor : Actor) (id : String) : List GrantPolicy :=
  (((db.policies.get? id).bind (·.policyJSON)).map fun p =>
    p.grants.filter fun g => db.ownsTailnet actor g.tailnetID).getD []

def Node.anonymous (n : Node) : Node := { n with instanceID := "" }

/-- Two databases agree on what the actor has to do with the node.  The node's instance may differ
as long as the reports are those of the instance in both or in neither. -/
structure Agree (actor : Actor) (id : String) (db db' : DB) : Prop where
  node : (db.nodes.get? id).map Node.anonymous = (db'.nodes.get? id).map Node.anonymous
  counters : (db.policies.get? id).map (fun row =>
      (row.desiredRevision, row.receivedRevision, row.appliedRevision, row.derperUsable)) =
    (db'.policies.get? id).map (fun row =>
      (row.desiredRevision, row.receivedRevision, row.appliedRevision, row.derperUsable))
  probes : (db.observations.get? id).bind (·.probesJSON) =
    (db'.observations.get? id).bind (·.probesJSON)
  tailnets : ∀ t, (db.tailnets.get? t).filter (fun tn => tn.ownerID = actor.id) =
    (db'.tailnets.get? t).filter (fun tn => tn.ownerID = actor.id)
  grants : ∀ t, db.ownsTailnet actor t → db.grants.get? (pair id t) = db'.grants.get? (pair id t)
  entries : db.ownEntries actor id = db'.ownEntries actor id
  report : ((db.reported id).bind (·.reportJSON)).map (·.restrict (db.ownsTailnet actor)) =
    ((db'.reported id).bind (·.reportJSON)).map (·.restrict (db'.ownsTailnet actor))
  previous : ((db.reported id).bind (·.previousReportJSON)).map
      (·.restrict (db.ownsTailnet actor)) =
    ((db'.reported id).bind (·.previousReportJSON)).map (·.restrict (db'.ownsTailnet actor))
  reportedAt : ((db.reported id).map (·.reportedAt)).getD 0 =
    ((db'.reported id).map (·.reportedAt)).getD 0

/-- The rates of a restricted report need only the restricted previous one. -/
theorem trafficRates_restrict (report : NodeReport) (previous : Option NodeReport)
    (own : String → Bool) : trafficRates (report.restrict own) previous =
      trafficRates (report.restrict own) (previous.map (·.restrict own)) := by
  cases previous with
  | none => rfl
  | some previous =>
    have hlast : ∀ t ∈ (report.restrict own).traffic,
        (previous.traffic.reverse.find? fun x => x.tailnetID = t.tailnetID) =
        ((previous.restrict own).traffic.reverse.find? fun x => x.tailnetID = t.tailnetID) := by
      intro t ht
      have hown : own t.tailnetID = true := (List.mem_filter.mp ht).2
      rw [NodeReport.restrict, ← List.filter_reverse, List.find?_filter]
      congr 1
      funext x
      by_cases hx : x.tailnetID = t.tailnetID <;> simp [hx, hown]
    have hobserved : (previous.restrict own).observedAt = previous.observedAt := rfl
    simp only [trafficRates, Option.map_some, hobserved]
    split_ifs
    · exact List.filterMap_congr fun t ht => by rw [hlast t ht]
    · rfl

section Participant

variable {E : Env} {c : Clock} {actor : Actor} {id : String} {streamOpen : Bool} {db db' : DB}

theorem Agree.owns (h : Agree actor id db db') : db.ownsTailnet actor = db'.ownsTailnet actor := by
  funext t
  have hfilter : ∀ o : Option Tailnet, o.any (fun tn => tn.ownerID = actor.id) =
      (o.filter fun tn => tn.ownerID = actor.id).isSome := by
    intro o
    cases o with
    | none => rfl
    | some tn => by_cases htn : tn.ownerID = actor.id <;> simp [htn]
  rw [DB.ownsTailnet, DB.ownsTailnet, hfilter, hfilter, h.tailnets t]

theorem Agree.participates (h : Agree actor id db db') :
    db.participates actor id = db'.participates actor id := by
  have hgrants : ∀ t, db'.ownsTailnet actor t →
      db.grants.get? (pair id t) = db'.grants.get? (pair id t) := fun t ht =>
    h.grants t (h.owns ▸ ht)
  rw [Bool.eq_iff_iff]
  simp only [DB.participates, Table.any_eq_true, decide_eq_true_eq, h.owns]
  constructor
  · rintro ⟨k, g, hg, rfl, hlive, howns⟩
    exact ⟨k, g, (hgrants _ howns).symm.trans hg, rfl, hlive, howns⟩
  · rintro ⟨k, g, hg, rfl, hlive, howns⟩
    exact ⟨k, g, (hgrants _ howns).trans hg, rfl, hlive, howns⟩

theorem Store.Reachable.visibleGrants (h : Store.Reachable E db) (id : String)
    (visible : String → Bool) :
    UniDERP.visibleGrants E id (db.policies.get? id) visible =
      .ok ((((db.policies.get? id).bind (·.policyJSON)).map fun p =>
        p.grants.filter fun g => visible g.tailnetID).getD []) := by
  cases hrow : db.policies.get? id with
  | none => rfl
  | some row =>
    obtain ⟨_, p, -, hp, -, -, hstorable⟩ := h.fresh id row hrow
    have hdecode : decodePolicy E p id = .ok p :=
      decodePolicy_eq_ok.mpr ⟨hstorable.size, hstorable.wellFormed, rfl⟩
    simp only [UniDERP.visibleGrants, Option.bind_some, hp, hdecode]
    rfl

/-- What a participant is shown of a node that is somebody else's. -/
theorem nodeStatus_participant (h : Store.Reachable E db) {n : Node}
    (hn : db.nodes.get? id = some n) (howner : ¬ Permitted actor n.ownerID) :
    nodeStatus E c actor id streamOpen db = (do
      requireOwner actor actor.id
      require (db.participates actor id) .forbidden
      pure (statusOf c id n (db.policies.get? id) (db.ownEntries actor id) (db.observations.get? id)
        (db.reported id)
        (((db.reported id).bind (·.reportJSON)).map (·.restrict (db.ownsTailnet actor))) ""
        streamOpen)) := by
  have hdenied : requireOwner actor n.ownerID = .error .forbidden := if_neg howner
  have hnot : (requireOwner actor n.ownerID).isOk = false := by
    rw [hdenied]
    rfl
  have hcurrent : ((db.observations.get? id).filter fun o => o.reportInstance = n.instanceID) =
      db.reported id := by
    simp only [DB.reported, hn, Option.any_some]
  have hgrants := h.visibleGrants id fun t =>
    db.ownsTailnet actor t || (false && (db.tailnets.get? t).isSome)
  simp only [Bool.false_and, Bool.or_false] at hgrants
  simp only [nodeStatus, hn, orElse, ok_bind, hnot, hcurrent, Bool.false_eq_true, false_or, if_false,
    Bool.false_and, Bool.or_false, hgrants]
  rfl

/-- The two statuses are put together from the same parts. -/
theorem Agree.statusOf_eq (h : Agree actor id db db') {n n' : Node}
    (hn : db.nodes.get? id = some n) (hn' : db'.nodes.get? id = some n') :
    statusOf c id n (db.policies.get? id) (db.ownEntries actor id) (db.observations.get? id)
        (db.reported id)
        (((db.reported id).bind (·.reportJSON)).map (·.restrict (db.ownsTailnet actor))) ""
        streamOpen =
      statusOf c id n' (db'.policies.get? id) (db'.ownEntries actor id) (db'.observations.get? id)
        (db'.reported id)
        (((db'.reported id).bind (·.reportJSON)).map (·.restrict (db'.ownsTailnet actor))) ""
        streamOpen := by
  have hnode := h.node
  rw [hn, hn', Option.map_some, Option.map_some, Option.some.injEq] at hnode
  have hview : n.anonymous.view id (c.read 0) = n'.anonymous.view id (c.read 0) := by rw [hnode]
  have hverified : n.anonymous.domainVerifiedAt = n'.anonymous.domainVerifiedAt := by rw [hnode]
  have hcounter : ∀ {α : Type} (f : ℕ × ℕ × ℕ × Bool → α),
      (db.policies.get? id).map (fun row =>
        f (row.desiredRevision, row.receivedRevision, row.appliedRevision, row.derperUsable)) =
      (db'.policies.get? id).map (fun row =>
        f (row.desiredRevision, row.receivedRevision, row.appliedRevision, row.derperUsable)) := by
    intro α f
    simpa only [Option.map_map, Function.comp_def] using congrArg (Option.map f) h.counters
  -- The rates of the shown tailnets need no other tailnet of the earlier report.
  have hrates : ∀ (x : DB), ((((x.reported id).bind (·.reportJSON)).map
      (·.restrict (x.ownsTailnet actor))).map fun r =>
        trafficRates r ((x.reported id).bind (·.previousReportJSON))) =
      (((x.reported id).bind (·.reportJSON)).map (·.restrict (x.ownsTailnet actor))).map fun r =>
        trafficRates r (((x.reported id).bind (·.previousReportJSON)).map
          (·.restrict (x.ownsTailnet actor))) := by
    intro x
    cases (x.reported id).bind (·.reportJSON) with
    | none => rfl
    | some report =>
      rw [Option.map_some, Option.map_some, Option.map_some, trafficRates_restrict]
  change n.view id (c.read 0) = n'.view id (c.read 0) at hview
  change n.domainVerifiedAt = n'.domainVerifiedAt at hverified
  simp only [statusOf, hview, hverified, h.entries, h.probes, h.reportedAt, hcounter (·.1),
    hcounter (·.2.1), hcounter (·.2.2.1), hcounter (·.2.2.2)]
  rw [hrates db, hrates db', h.report, h.previous]

/-- To an account that neither owns a node nor is an administrator, two reachable databases that
agree on its own part give the same status of the node. -/
theorem Store.Reachable.participant_status (h : Store.Reachable E db) (h' : Store.Reachable E db')
    (hadmin : actor.role ≠ .admin)
    (howner : ∀ n, db.nodes.get? id = some n → n.ownerID ≠ actor.id)
    (hagree : Agree actor id db db') :
    nodeStatus E c actor id streamOpen db = nodeStatus E c actor id streamOpen db' := by
  have hnode := hagree.node
  cases hn : db.nodes.get? id with
  | none =>
    rw [hn, Option.map_none] at hnode
    have hn' := Option.map_eq_none_iff.mp hnode.symm
    simp only [nodeStatus, hn, hn', orElse]
    rfl
  | some n =>
    rw [hn, Option.map_some] at hnode
    obtain ⟨n', hn', hsame⟩ := Option.map_eq_some_iff.mp hnode.symm
    have hdenied : ¬ Permitted actor n.ownerID := fun hp =>
      hp.2.2.elim hadmin fun heq => howner n hn heq.symm
    have hdenied' : ¬ Permitted actor n'.ownerID := by
      have hid : n'.anonymous.ownerID = n.anonymous.ownerID := by rw [hsame]
      change ¬ Permitted actor n'.anonymous.ownerID
      rwa [hid]
    rw [nodeStatus_participant h hn hdenied, nodeStatus_participant h' hn' hdenied',
      hagree.participates, hagree.statusOf_eq hn hn']

end Participant

/-- The two databases agree on the tables' own keys, and so on all. -/
def agrees (actor : Actor) (id : String) (db db' : DB) : Bool :=
  (db.nodes.get? id).map Node.anonymous = (db'.nodes.get? id).map Node.anonymous &&
  (db.policies.get? id).map (fun row =>
      (row.desiredRevision, row.receivedRevision, row.appliedRevision, row.derperUsable)) =
    (db'.policies.get? id).map (fun row =>
      (row.desiredRevision, row.receivedRevision, row.appliedRevision, row.derperUsable)) &&
  (db.observations.get? id).bind (·.probesJSON) =
    (db'.observations.get? id).bind (·.probesJSON) &&
  ((db.tailnets.keys ++ db'.tailnets.keys).all fun t =>
    (db.tailnets.get? t).filter (fun tn => tn.ownerID = actor.id) =
        (db'.tailnets.get? t).filter (fun tn => tn.ownerID = actor.id) &&
      db.grants.get? (pair id t) = db'.grants.get? (pair id t)) &&
  db.ownEntries actor id = db'.ownEntries actor id &&
  ((db.reported id).bind (·.reportJSON)).map (·.restrict (db.ownsTailnet actor)) =
    ((db'.reported id).bind (·.reportJSON)).map (·.restrict (db'.ownsTailnet actor)) &&
  ((db.reported id).bind (·.previousReportJSON)).map (·.restrict (db.ownsTailnet actor)) =
    ((db'.reported id).bind (·.previousReportJSON)).map (·.restrict (db'.ownsTailnet actor)) &&
  ((db.reported id).map (·.reportedAt)).getD 0 = ((db'.reported id).map (·.reportedAt)).getD 0

theorem Agree.of_agrees {actor : Actor} {id : String} {db db' : DB}
    (h : agrees actor id db db' = true) : Agree actor id db db' := by
  simp only [agrees, Bool.and_eq_true, decide_eq_true_eq, List.all_eq_true, List.mem_append] at h
  obtain ⟨⟨⟨⟨⟨⟨⟨hnode, hcounters⟩, hprobes⟩, htailnets⟩, hentries⟩, hreport⟩, hprevious⟩, hat⟩ := h
  have hmem : ∀ {db : DB} {t : String}, t ∉ db.tailnets.keys → db.tailnets.get? t = none :=
    fun ht => Option.eq_none_iff_forall_ne_some.mpr fun tn htn => ht (Table.mem_keys.mpr ⟨tn, htn⟩)
  refine ⟨hnode, hcounters, hprobes, fun t => ?_, fun t ht => ?_, hentries, hreport, hprevious, hat⟩
  · by_cases hkey : t ∈ db.tailnets.keys ∨ t ∈ db'.tailnets.keys
    · exact (htailnets t hkey).1
    · rw [not_or] at hkey
      rw [hmem hkey.1, hmem hkey.2]
  · rw [DB.ownsTailnet, Option.any_eq_true] at ht
    obtain ⟨tn, htn, -⟩ := ht
    exact (htailnets t (.inl (Table.mem_keys.mpr ⟨tn, htn⟩))).2

namespace First

def movedKey : String := nodePublicHexPrefix ++ token '3'

def shared (at_ home away : ℕ) : NodeReport where
  localMaxBudgetBPS := none
  effectiveBudgetBPS := none
  revision := 1
  usable := true
  observedAt := .utc (at_ * second)
  traffic := [⟨7, tailnet.text, home, home, 0, 0⟩, ⟨8, guestTailnet.text, away, away, 0, 0⟩]
  activeConnections := some home

/-- The guest has asked for a grant. -/
def asking : List Op := enrolling ++ sharing.take 3

/-- The owner's tailnet with this key comes to the node, which counts so much of its traffic. -/
def serving (key : String) (bytes : ℕ) : List Op := [
  .addTailnet admin "home" "Thome" tailnet [] [⟨key, .utc (5000 * second)⟩],
  .requestGrant admin node.text tailnet.text 0 zeroTime grant,
  .nodeHeartbeat session.text (some (shared 990 bytes 100))]

/-- What the theorem leaves out differs between the two: the owner's key and traffic. -/
def sameForGuest (db db' : DB) : Bool :=
  agrees guest node.text db db' && db.participates guest node.text &&
  (db.nodes.get? node.text).map (·.ownerID) = some owner.text &&
  ((db.policies.get? node.text).bind (·.policyJSON)).any
    (·.grants.map (·.tailnetID) = [tailnet.text]) &&
  (db.policies.get? node.text).bind (·.policyJSON) ≠
    (db'.policies.get? node.text).bind (·.policyJSON) &&
  (db.reported node.text).bind (·.reportJSON) ≠ (db'.reported node.text).bind (·.reportJSON)

end First

/-- Two states that differ in the key and the traffic of another tailnet look the same to the
guest. -/
theorem first_guest_status : ∃ db db', Store.Reachable Env.plain db ∧
    Store.Reachable Env.plain db' ∧ db.participates First.guest First.node.text ∧
    ((db.policies.get? First.node.text).bind (·.policyJSON)).any
      (·.grants.map (·.tailnetID) = [First.tailnet.text]) ∧
    (db.policies.get? First.node.text).bind (·.policyJSON) ≠
      (db'.policies.get? First.node.text).bind (·.policyJSON) ∧
    (db.reported First.node.text).bind (·.reportJSON) ≠
      (db'.reported First.node.text).bind (·.reportJSON) ∧
    nodeStatus Env.plain First.clock First.guest First.node.text true db =
      nodeStatus Env.plain First.clock First.guest First.node.text true db' := by
  -- The two runs part after the grants: they serve different keys and report different traffic.
  have hrun : (do
      let base ← replay Env.plain First.clock First.asking DB.empty
      let db ← replay Env.plain First.clock (First.serving First.homeKey 1000) base
      let db' ← replay Env.plain First.clock (First.serving First.movedKey 5000) base
      pure (First.sameForGuest db db')) = .ok true := by
    decide +kernel
  simp only [Except_bind_eq_ok, Except_pure_eq_ok] at hrun
  obtain ⟨base, hbase, db, hdb, db', hdb', hsame⟩ := hrun
  simp only [First.sameForGuest, Bool.and_eq_true, decide_eq_true_eq] at hsame
  obtain ⟨⟨⟨⟨⟨hagrees, hparticipates⟩, hnode⟩, hentries⟩, hpolicy⟩, hreport⟩ := hsame
  have hreach : Store.Reachable Env.plain db :=
    replay_reachable hdb (replay_reachable hbase (.start rfl))
  have hreach' : Store.Reachable Env.plain db' :=
    replay_reachable hdb' (replay_reachable hbase (.start rfl))
  refine ⟨db, db', hreach, hreach', hparticipates, hentries, hpolicy, hreport, ?_⟩
  refine hreach.participant_status hreach' (by decide) (fun n hn => ?_) (.of_agrees hagrees)
  rw [hn, Option.map_some, Option.some.injEq] at hnode
  rw [hnode]
  decide

end UniDERP
