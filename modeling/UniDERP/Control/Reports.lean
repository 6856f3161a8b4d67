import UniDERP.Control.Observability
import UniDERP.Control.Revisions

namespace UniDERP

def DB.observation (db : DB) (id : String) : Observation := (db.observations.get? id).getD {}

structure Observation.SameReports (o o' : Observation) : Prop where
  reporter : o.reportInstance = o'.reportInstance
  current : o.reportJSON = o'.reportJSON
  previous : o.previousReportJSON = o'.previousReportJSON

theorem Observation.SameReports.refl (o : Observation) : o.SameReports o := ⟨rfl, rfl, rfl⟩

/-- A heartbeat in a session of this instance of the node brings the report. -/
def Commit.Reports (a : Commit) (E : Env) (db : DB) (id instance_ : String) (report : NodeReport) :
    Prop :=
  ∃ token s, a.op = .nodeHeartbeat token (some report) ∧
    nodeSession E (a.clock.read 0) token db = .ok s ∧ s.nodeID = id ∧ s.instanceID = instance_

structure NodeReport.Follows (report old : NodeReport) : Prop where
  observed : old.observedAt.time < report.observedAt.time
  revision : old.revision ≤ report.revision

/-- A step keeps the reports of a node, forgets them, or stores the next one. -/
inductive ReportEdit (E : Env) (db db' : DB) (a : Commit) (id : String) : Prop
  | kept (same : (db'.observation id).SameReports (db.observation id))
      (row : db'.policies.get? id = none → db.policies.get? id = none)
  | forgotten (none : db'.observations.get? id = none)
  | reported {report : NodeReport} {row : PolicyRow}
      (call : a.Reports E db id (db'.observation id).reportInstance report)
      (current : (db'.observation id).reportJSON = some report)
      (previous : (db'.observation id).previousReportJSON =
        if (db.observation id).reportInstance = (db'.observation id).reportInstance then
          (db.observation id).reportJSON else none)
      (follows : (db.observation id).reportInstance = (db'.observation id).reportInstance →
        ∀ old, (db.observation id).reportJSON = some old → report.Follows old)
      (stored : db'.policies.get? id = some row) (desired : report.revision ≤ row.desiredRevision)

def Op.observes : Op → Bool
  | .nodeHeartbeat .. | .saveProbes .. => true
  | _ => false

section Edit

variable {E : Env} {c : Clock} {db mid db' : DB} {op : Op} {reply : Reply} {S : String → Prop}
  {a : Commit} {id : String}

theorem Observation.stale_eq_ok {o : Observation} {instance_ : String} {report : NodeReport}
    (h : o.stale instance_ report = .ok false) (hsame : o.reportInstance = instance_)
    {old : NodeReport} (hold : o.reportJSON = some old) : report.Follows old := by
  rw [stale, if_pos hsame, hold] at h
  simp only [Except_bind_eq_ok, orElse_eq_ok, Except_pure_eq_ok, Option.some.injEq,
    exists_eq_left', Bool.or_eq_false_iff, decide_eq_false_iff_not, not_lt, not_le] at h
  exact ⟨h.2, h.1⟩

/-- A saved report is ignored, or is stored above the one it follows. -/
theorem saveNodeReport_eq_ok {session : NodeSession} {report : NodeReport} {desired : ℕ} {now : Int}
    (h : saveNodeReport session report desired now db = .ok db') :
    db' = db ∨ report.revision ≤ desired ∧
      (db.observation session.nodeID).stale session.instanceID report = .ok false ∧
      db' = { db with
        observations := db.observations.insert session.nodeID { db.observation session.nodeID with
          previousReportJSON :=
            if (db.observation session.nodeID).reportInstance = session.instanceID
            then (db.observation session.nodeID).reportJSON else none
          reportInstance := session.instanceID
          reportJSON := some report
          reportedAt := unix now } } := by
  simp only [saveNodeReport, Except_bind_eq_ok, require_eq_ok, exists_const] at h
  obtain ⟨⟨hrevision, -⟩, -, -, stale, hstale, h⟩ := h
  cases stale with
  | true => exact .inl (Except_pure_eq_ok.mp h).symm
  | false =>
    simp only [Bool.false_eq_true, if_false, Except_bind_eq_ok, require_eq_ok, exists_const,
      Except_pure_eq_ok] at h
    exact .inr ⟨hrevision, hstale, h.2.symm⟩

theorem DB.report_erased {k : String} (h : mid.observations = db.observations.erase k)
    (hrow : id ≠ k → mid.policies.get? id = none → db.policies.get? id = none) :
    mid.observations.get? id = none ∨
      (mid.observation id).SameReports (db.observation id) ∧
      (mid.policies.get? id = none → db.policies.get? id = none) := by
  by_cases hk : id = k
  · exact .inl (by simp [h, hk])
  · have hkept : mid.observation id = db.observation id := by
      simp [DB.observation, h, Table.get?_erase, hk]
    exact .inr ⟨hkept ▸ .refl _, hrow hk⟩

/-- The other transactions keep the reports, or forget them with the registration. -/
theorem Effect.report_edit (h : Effect E c db op reply mid S) (hop : op.observes = false)
    (id : String) :
    mid.observations.get? id = none ∨
      (mid.observation id).SameReports (db.observation id) ∧
      (mid.policies.get? id = none → db.policies.get? id = none) := by
  cases h
  case nodeHeartbeat => cases hop
  case saveProbes => cases hop
  case reissueEnrollment k _ _ _ _ _ _ _ _ =>
    exact DB.report_erased rfl fun hk => by simp [DB.release, Table.get?_modify, hk]
  case leaveNode s _ _ =>
    exact DB.report_erased rfl fun hk => by simp [DB.release, Table.get?_modify, hk]
  case deleteNode k _ _ _ =>
    exact DB.report_erased rfl fun hk => by simp [DB.deleteNode, Table.get?_erase, hk]
  case changeNodeDomain => exact DB.report_erased rfl fun _ hnone => hnone
  case enroll =>
    refine .inr ⟨.refl _, ?_⟩
    dsimp only
    split
    · exact fun hnone => hnone
    · exact Table.get?_of_insert_none
  case ports k _ _ _ _ _ =>
    refine .inr ⟨?_, fun hnone => hnone⟩
    simp only [DB.observation, Table.get?_modify]
    split_ifs
    · cases db.observations.get? id <;> exact ⟨rfl, rfl, rfl⟩
    · exact .refl _
  case setNodeQoS =>
    refine .inr ⟨.refl _, fun hnone => ?_⟩
    rw [Table.get?_modify] at hnone
    split_ifs at hnone
    · exact Option.map_eq_none_iff.mp hnone
    · exact hnone
  case ackReceived => exact .inr ⟨.refl _, Table.get?_of_insert_none⟩
  case ackApplied => exact .inr ⟨.refl _, Table.get?_of_insert_none⟩
  all_goals exact .inr ⟨.refl _, fun hnone => hnone⟩

theorem Built.revision {now : Int} {row row' : PolicyRow} {entries : List Entry} {p : Policy}
    (h : Built E id now row entries row' p) : row'.desiredRevision = p.revision := by
  cases h with
  | same body storable revision content => exact revision.symm
  | next content storable old =>
    subst content
    rfl

/-- A heartbeat stores its report for the revision that it builds, unless the report is stale. -/
theorem nodeHeartbeat_report {token : String} {report : Option NodeReport} {r : HeartbeatReply}
    (h : nodeHeartbeat E c token report db = .ok (db', r)) (id : String) :
    ReportEdit E db db' ⟨.nodeHeartbeat token report, c, reply⟩ id := by
  simp only [nodeHeartbeat, Except_bind_eq_ok, Prod.exists] at h
  obtain ⟨s, hs, mid, p, hb, h⟩ := h
  obtain ⟨row, entries, row', -, -, hbuilt, rfl⟩ := buildPolicy_eq_ok.mp hb
  have hkept (hnone : (db.policies.insert s.nodeID row').get? id = none) :
      db.policies.get? id = none := Table.get?_of_insert_none hnone
  cases report with
  | none =>
    simp only [Except_bind_eq_ok, Except_pure_eq_ok, Prod.mk.injEq] at h
    obtain ⟨_, rfl, _, -, rfl, -⟩ := h
    exact .kept (.refl _) hkept
  | some report =>
    simp only [Except_bind_eq_ok, Except_pure_eq_ok, Prod.mk.injEq] at h
    obtain ⟨mid, hsave, _, -, rfl, -⟩ := h
    rcases saveNodeReport_eq_ok hsave with rfl | ⟨hrevision, hstale, rfl⟩
    · exact .kept (.refl _) hkept
    · by_cases hid : id = s.nodeID
      · subst hid
        have hdesired : report.revision ≤ row'.desiredRevision :=
          hrevision.trans_eq hbuilt.revision.symm
        refine .reported ⟨token, s, rfl, hs, rfl, ?_⟩ ?_ ?_ ?_ (Table.get?_insert_self _ _ _)
          hdesired
        all_goals simp only [DB.observation, Table.get?_insert_self, Option.getD_some]
        · rfl
        · exact fun hsame old hold => Observation.stale_eq_ok hstale hsame hold
      · refine .kept ?_ hkept
        simp only [DB.observation, Table.get?_insert_ne _ _ hid]
        exact .refl _

theorem saveProbes_report {actor : Actor} {k domain : String} {derpPort stunPort : ℕ}
    {probes : NodeProbes} (h : saveProbes actor k domain derpPort stunPort probes db = .ok db')
    (id : String) : ReportEdit E db db' a id := by
  simp only [saveProbes, Except_bind_eq_ok, require_eq_ok, exists_const, Except_pure_eq_ok] at h
  obtain ⟨n, -, -, rfl⟩ := h
  refine .kept ?_ fun hnone => hnone
  by_cases hid : id = k
  · subst hid
    simp only [DB.observation, Table.get?_insert_self, Option.getD_some]
    exact ⟨rfl, rfl, rfl⟩
  · simp only [DB.observation, Table.get?_insert_ne _ _ hid]
    exact .refl _

theorem Step.report_edit (h : Step E db a db') (id : String) : ReportEdit E db db' a id := by
  obtain ⟨op, c, reply⟩ := a
  -- A heartbeat and a probe write a row; every other transaction leaves it or erases it.
  by_cases hop : op.observes
  · cases op with
    | nodeHeartbeat token report =>
      obtain ⟨r, h, -⟩ := answer_eq_ok.mp h
      exact nodeHeartbeat_report h id
    | saveProbes actor k domain derpPort stunPort probes =>
      exact saveProbes_report (quiet_eq_ok.mp h).1 id
    | _ => cases hop
  · obtain ⟨mid, S, i, he, hr⟩ := exec_does h
    have hobserved : db'.observations = mid.observations := by rw [hr.frame]
    rcases he.report_edit (by simpa using hop) id with hnone | ⟨hsame, hrow⟩
    · exact .forgotten (hobserved ▸ hnone)
    · refine .kept ?_ fun hnone => hrow (hr.row_none.mp hnone)
      rw [DB.observation, hobserved]
      exact hsame

end Edit

/-- The stored reports of a node are in order, and of revisions that were built for it. -/
structure DB.ReportsInOrder (db : DB) (id : String) : Prop where
  previous : ∀ old, (db.observation id).previousReportJSON = some old →
    ∃ report, (db.observation id).reportJSON = some report ∧ report.Follows old
  desired : ∀ report, (db.observation id).reportJSON = some report →
    ∃ row, db.policies.get? id = some row ∧ report.revision ≤ row.desiredRevision

section Order

variable {E : Env} {db db' : DB} {a : Commit} {id : String}

theorem DB.ReportsInOrder.of_none (h : db.observations.get? id = none) : db.ReportsInOrder id := by
  constructor <;> simp [DB.observation, h]

theorem Step.reports_in_order (h : Step E db a db') (hdb : db.ReportsInOrder id) :
    db'.ReportsInOrder id := by
  cases Step.report_edit h id with
  | kept same row =>
    refine ⟨fun old hold => ?_, fun report hreport => ?_⟩
    · rw [same.current]
      exact hdb.previous old (same.previous ▸ hold)
    · -- The revision that is asked for never falls.
      obtain ⟨row₀, hrow₀, hle⟩ := hdb.desired report (same.current ▸ hreport)
      obtain ⟨row', hrow'⟩ := Option.ne_none_iff_exists'.mp fun hnone => by
        simp [row hnone] at hrow₀
      exact ⟨row', hrow', hle.trans (Step.body_change h hrow₀ hrow').before.revision⟩
  | forgotten hnone => exact .of_none hnone
  | reported call current previous follows stored desired =>
    refine ⟨fun old hold => ⟨_, current, ?_⟩, fun report hreport => ?_⟩
    · rw [previous] at hold
      split_ifs at hold with hsame
      exact follows hsame old hold
    · cases current.symm.trans hreport
      exact ⟨_, stored, desired⟩

theorem Store.Reachable.reports_in_order (h : Store.Reachable E db) (id : String) :
    db.ReportsInOrder id := by
  apply Reachable.invariant h (I := fun db => db.ReportsInOrder id)
  · rintro _ rfl
    exact .of_none rfl
  · intro db a db' _ ih hstep
    exact Step.reports_in_order hstep ih

/-- The stored report was brought by the instance it is stored for, and the previous one by the same
instance before it. -/
theorem Store.Run.report_origin (r : Store.Run E) {i : ℕ} (hi : i ≤ r.len) {report : NodeReport}
    (hreport : ((r.state i).observation id).reportJSON = some report) :
    ∃ j < i, (r.label j).Reports E (r.state j) id ((r.state i).observation id).reportInstance
        report ∧
      ∀ old, ((r.state i).observation id).previousReportJSON = some old →
        ∃ k < j, (r.label k).Reports E (r.state k) id ((r.state i).observation id).reportInstance
          old := by
  induction i generalizing report with
  | zero =>
    rw [r.start] at hreport
    cases hreport
  | succ i ih =>
    cases Step.report_edit (r.next i hi) id with
    | kept same row =>
      obtain ⟨j, hj, hcall, hold⟩ := ih (Nat.le_of_succ_le hi) (same.current.symm.trans hreport)
      rw [same.reporter, same.previous]
      exact ⟨j, hj.trans (Nat.lt_succ_self i), hcall, hold⟩
    | forgotten hnone => simp [DB.observation, hnone] at hreport
    | reported call current previous follows stored desired =>
      cases current.symm.trans hreport
      refine ⟨i, Nat.lt_succ_self i, call, fun old hold => ?_⟩
      rw [previous] at hold
      split_ifs at hold with hsame
      -- The report that was the current one, of the same instance.
      obtain ⟨j, hj, hcall, -⟩ := ih (Nat.le_of_succ_le hi) hold
      exact ⟨j, hj, hsame ▸ hcall⟩

end Order

/-- A rate over a positive interval, from two counts of one counter that has not gone back. -/
structure TailnetRate.Between (rate : TailnetRate) (report old : NodeReport)
    (now before : TailnetTraffic) : Prop where
  counted : now ∈ report.traffic ∧ before ∈ old.traffic
  tailnet : now.tailnetID = rate.tailnetID ∧ before.tailnetID = rate.tailnetID
  counter : now.counterID ≠ 0 ∧ before.counterID = now.counterID
  received : before.rxPayloadBytes ≤ now.rxPayloadBytes
  sent : before.txPayloadBytes ≤ now.txPayloadBytes
  interval : rate.intervalSeconds =
    (Reading.ofWall report.observedAt.time).sub (.ofWall old.observedAt.time) / second
  positive : 0 < rate.intervalSeconds
  rx : rate.rxBitsPerSecond =
    (now.rxPayloadBytes - before.rxPayloadBytes : ℕ) * 8 / rate.intervalSeconds
  tx : rate.txBitsPerSecond =
    (now.txPayloadBytes - before.txPayloadBytes : ℕ) * 8 / rate.intervalSeconds

section Rates

variable {report old : NodeReport} {rate : TailnetRate}

theorem trafficRates_between (h : rate ∈ trafficRates report (some old)) :
    ∃ now before, rate.Between report old now before := by
  simp only [trafficRates] at h
  split_ifs at h with hpositive
  · obtain ⟨now, hnow, hrate⟩ := List.mem_filterMap.mp h
    simp only [tailnetRate, Option.bind_eq_bind, Option.bind_eq_some_iff, Option.guard_eq_some',
      Option.pure_def, Option.some.injEq] at hrate
    obtain ⟨before, hbefore, _, ⟨hzero, hcounter, hrx, htx⟩, rfl⟩ := hrate
    have hmem : before ∈ old.traffic := List.mem_reverse.mp (List.mem_of_find?_eq_some hbefore)
    have htailnet : before.tailnetID = now.tailnetID := by
      simpa using List.find?_some hbefore
    exact ⟨now, before, ⟨hnow, hmem⟩, ⟨rfl, htailnet⟩, ⟨hzero, hcounter.symm⟩, hrx, htx, rfl,
      hpositive, rfl, rfl⟩
  · simp at h

theorem TailnetRate.Between.of_restrict {own : String → Bool} {now before : TailnetTraffic}
    (h : rate.Between (report.restrict own) old now before) : rate.Between report old now before :=
  { h with counted := ⟨(List.mem_filter.mp h.counted.1).1, h.counted.2⟩ }

/-- The rates are those between the two stored reports of the node's instance. -/
theorem nodeStatus_rates {E : Env} {c : Clock} {actor : Actor} {id : String} {streamOpen : Bool}
    {db : DB} {status : NodeStatus} (h : nodeStatus E c actor id streamOpen db = .ok status)
    (hrate : rate ∈ status.trafficRates) :
    ∃ n o report old now before, db.nodes.get? id = some n ∧ db.observations.get? id = some o ∧
      o.reportInstance = n.instanceID ∧ o.reportJSON = some report ∧
      o.previousReportJSON = some old ∧ rate.Between report old now before := by
  simp only [nodeStatus, Except_bind_eq_ok, orElse_eq_ok, require_eq_ok, exists_const,
    Except_pure_eq_ok] at h
  obtain ⟨-, -, n, hn, -, grants, -, rfl⟩ := h
  simp only [statusOf] at hrate
  cases hcurrent : (db.observations.get? id).filter fun o => o.reportInstance = n.instanceID with
  | none => simp [hcurrent] at hrate
  | some o =>
    obtain ⟨hobserved, hinstance⟩ := Option.filter_eq_some_iff.mp hcurrent
    simp only [hcurrent, Option.bind_some] at hrate
    cases hreport : o.reportJSON with
    | none => simp [hreport] at hrate
    | some report =>
      cases hprevious : o.previousReportJSON with
      | none => simp [hreport, hprevious, trafficRates] at hrate
      | some old =>
        simp only [hreport, hprevious, Option.map_some, Option.getD_some] at hrate
        obtain ⟨now, before, hbetween⟩ := trafficRates_between hrate
        refine ⟨n, o, report, old, now, before, hn, hobserved, by simpa using hinstance, hreport,
          hprevious, ?_⟩
        split_ifs at hbetween
        · exact hbetween
        · exact hbetween.of_restrict

end Rates

/-- In every run, whatever reports the heartbeats bring and in whatever order: the report stored for
a node is of no higher revision than the node was given, the two stored reports were brought by one
instance, the previous one before and observed before the current one and of no higher revision, and
every rate that is shown is between the counts of these two reports. -/
theorem Store.Run.stored_reports {E : Env} (r : Store.Run E) (i : ℕ) (hi : i ≤ r.len)
    (id : String) :
    (∀ o report, (r.state i).observations.get? id = some o → o.reportJSON = some report →
      (∃ row, (r.state i).policies.get? id = some row ∧ report.revision ≤ row.desiredRevision) ∧
      ∃ j < i, (r.label j).Reports E (r.state j) id o.reportInstance report ∧
        ∀ old, o.previousReportJSON = some old →
          ∃ k < j, (r.label k).Reports E (r.state k) id o.reportInstance old) ∧
    (∀ o old, (r.state i).observations.get? id = some o → o.previousReportJSON = some old →
      ∃ report, o.reportJSON = some report ∧ old.observedAt.time < report.observedAt.time ∧
        old.revision ≤ report.revision) ∧
    ∀ c actor streamOpen status, nodeStatus E c actor id streamOpen (r.state i) = .ok status →
      ∀ rate ∈ status.trafficRates, ∃ n o report old now before,
        (r.state i).nodes.get? id = some n ∧ (r.state i).observations.get? id = some o ∧
        o.reportInstance = n.instanceID ∧ o.reportJSON = some report ∧
        o.previousReportJSON = some old ∧ rate.Between report old now before := by
  have horder := Store.Reachable.reports_in_order (r.reachable hi) id
  have hrow {o : Observation} (ho : (r.state i).observations.get? id = some o) :
      (r.state i).observation id = o := by simp [DB.observation, ho]
  refine ⟨fun o report ho hreport => ?_, fun o old ho hold => ?_,
    fun c actor streamOpen status hstatus rate hrate => nodeStatus_rates hstatus hrate⟩
  · obtain rfl := hrow ho
    exact ⟨horder.desired report hreport, r.report_origin hi hreport⟩
  · obtain rfl := hrow ho
    obtain ⟨report, hreport, hfollows⟩ := horder.previous old hold
    exact ⟨report, hreport, hfollows.observed, hfollows.revision⟩

namespace First

def report (at_ bytes : ℕ) : NodeReport where
  localMaxBudgetBPS := none
  effectiveBudgetBPS := none
  revision := 1
  usable := true
  observedAt := .utc (at_ * second)
  traffic := [⟨7, tailnet.text, bytes, 2 * bytes, 0, 0⟩]
  activeConnections := none

def reporting : List Op := enrolling ++ granting ++ [
  .nodeHeartbeat session.text (some (report 990 1000)),
  .nodeHeartbeat session.text (some (report 980 5000)),
  .nodeHeartbeat session.text (some (report 995 6000))]

/-- The rates over the five seconds from the first report to the third. -/
def rate : TailnetRate := ⟨tailnet.text, 8000, 16000, 5⟩

def reported (E : Env) (db : DB) : Bool :=
  (db.observations.get? node.text).any (fun o =>
    o.previousReportJSON = some (report 990 1000) && o.reportJSON = some (report 995 6000)) &&
  (nodeStatus E clock admin node.text true db).toOption.any fun s => s.trafficRates = [rate]

end First

theorem first_stored_reports : ∃ (r : Store.Run Env.plain) (j k : ℕ) (instance_ : String)
    (now before : TailnetTraffic), k < j ∧ j < r.len ∧
    (r.label j).Reports Env.plain (r.state j) First.node.text instance_ (First.report 995 6000) ∧
    (r.label k).Reports Env.plain (r.state k) First.node.text instance_ (First.report 990 1000) ∧
    First.rate.Between (First.report 995 6000) (First.report 990 1000) now before := by
  have hrun : (replay Env.plain First.clock First.reporting DB.empty).map
      (First.reported Env.plain) = .ok true := by
    decide +kernel
  obtain ⟨db, hdb, hreported⟩ := Except_map_eq_ok.mp hrun
  obtain ⟨r, hlen, hstate, -⟩ := replay_run hdb
  obtain rfl : db = r.state r.len := by
    have hlast := hstate r.len hlen.le
    rw [hlen, List.take_length, hdb, Except.ok.injEq, ← hlen] at hlast
    exact hlast
  simp only [First.reported, Bool.and_eq_true, Option.any_eq_true, decide_eq_true_eq,
    toOption_eq_some] at hreported
  obtain ⟨⟨o, ho, hold, hreport⟩, status, hstatus, hrates⟩ := hreported
  obtain ⟨hstored, -, hshown⟩ := r.stored_reports r.len le_rfl First.node.text
  obtain ⟨-, j, hj, hcall, hbefore⟩ := hstored o _ ho hreport
  obtain ⟨k, hk, hcall'⟩ := hbefore _ hold
  obtain ⟨n, o', report, old, now, before, -, ho', -, hreport', hold', hbetween⟩ :=
    hshown _ _ _ status hstatus First.rate (by simp [hrates])
  cases ho.symm.trans ho'
  cases hreport.symm.trans hreport'
  cases hold.symm.trans hold'
  exact ⟨r, j, k, o.reportInstance, now, before, hk, hj, hcall, hcall', hbetween⟩

end UniDERP
