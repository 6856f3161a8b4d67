import UniDERP.Control.Stream
import UniDERP.Control.Resources

namespace UniDERP

structure DERPNode where
  name : String
  regionID : ℕ
  hostName : String
  derpPort : ℕ
  stunPort : ℕ
  deriving DecidableEq, Repr

structure DERPRegion where
  regionID : ℕ
  regionCode : String
  regionName : String
  nodes : List DERPNode
  deriving DecidableEq, Repr

def derpRegion (n : Node) : DERPRegion :=
  let code := "uniderp-" ++ toString n.regionID
  { regionID := n.regionID, regionCode := code, regionName := n.displayName
    nodes := [⟨code ++ "a", n.regionID, n.domain, n.derpPort, n.stunPort⟩] }

def mapRow (db : DB) (tailnet : String) (k : Pair) (g : Grant) :
    Option (String × Node × PolicyRow) := do
  let (id, t) := ofLex k
  guard (t = tailnet ∧ g.state = .active)
  let n ← db.nodes.get? id
  let tn ← db.tailnets.get? tailnet
  let row ← db.policies.get? id
  guard (n.enabled ∧ n.state.serving ∧ db.userEnabled n.ownerID ∧ tn.enabled ∧
    db.userEnabled tn.ownerID)
  pure (id, n, row)

def mapRows (db : DB) (tailnet : String) : List (String × Node × PolicyRow) :=
  (db.grants.filterMap (mapRow db tailnet)).values.mergeSort fun a b =>
    a.2.1.regionID ≤ b.2.1.regionID

def Policy.about (p : Policy) (tailnet : String) : Policy :=
  { p with grants := p.grants.filter fun g => g.tailnetID = tailnet }

/-- The loop over the rows; `now` gives the readings that are still to be taken. -/
def exportRegions (E : Env) (tailnet : String) : (ℕ → Int) → List (String × Node × PolicyRow) →
    Table ℕ DERPRegion → Except Err (Table ℕ DERPRegion)
  | _, [], m => .ok m
  | now, (id, n, row) :: rows, m => do
    let body ← orElse row.policyJSON (.policy "decode policy")
    let p ← decodePolicy E body id
    let shown := p.about tailnet
    let rest := fun i => now (i + (shown.grants.flatMap (·.keys)).length)
    if hasLiveKey now shown then do
      require (900 ≤ n.regionID ∧ n.regionID ≤ 999 ∧ m.get? n.regionID = none) .conflict
      exportRegions E tailnet rest rows (m.insert n.regionID (derpRegion n))
    else exportRegions E tailnet rest rows m

def buildDERPMap (E : Env) (c : Clock) (actor : Actor) (tailnet : String) (db : DB) :
    Except Err (Table ℕ DERPRegion) := do
  let _ ← tailnetOwner actor tailnet db
  exportRegions E tailnet c.read (mapRows db tailnet) ∅

structure NodeView where
  id : String
  ownerID : String
  domain : String
  derpPort : ℕ
  stunPort : ℕ
  displayName : String
  regionID : ℕ
  state : NodeState
  lastHeartbeat : Int
  lastError : String
  enabled : Bool
  deriving DecidableEq, Repr

structure GrantStatus where
  grantID : String
  tailnetID : String
  lastIdentitySuccess : Int
  identityUntil : Int
  controlUntil : Int
  explicitUntil : Int
  validKeys : ℕ
  deriving DecidableEq, Repr

structure TailnetRate where
  tailnetID : String
  rxBitsPerSecond : ℚ
  txBitsPerSecond : ℚ
  intervalSeconds : ℚ
  deriving DecidableEq

structure NodeStatus where
  node : NodeView
  desiredRevision : ℕ
  receivedRevision : ℕ
  appliedRevision : ℕ
  reportedUsable : Bool
  policyHasLiveKeys : Bool
  controlStreamOpen : Bool
  domainVerifiedAt : Int
  instanceID : String
  grants : List GrantStatus
  report : Option NodeReport
  reportedAt : Int
  probes : Option NodeProbes
  trafficRates : List TailnetRate
  deriving DecidableEq

/-- The node as it is shown: offline when its lease has passed. -/
def Node.view (n : Node) (id : String) (now : Int) : NodeView where
  id := id
  ownerID := n.ownerID
  domain := n.domain
  derpPort := n.derpPort
  stunPort := n.stunPort
  displayName := n.displayName
  regionID := n.regionID
  state :=
    if (n.state = .registered ∨ n.state = .ready) ∧ n.leaseUntil ≠ 0 ∧ ofUnix n.leaseUntil ≤ now
    then .offline else n.state
  lastHeartbeat := n.lastHeartbeat
  lastError := n.lastError
  enabled := n.enabled

def DB.ownsTailnet (db : DB) (actor : Actor) (tailnet : String) : Bool :=
  (db.tailnets.get? tailnet).any fun tn => tn.ownerID = actor.id

def DB.participates (db : DB) (actor : Actor) (id : String) : Bool :=
  db.grants.any fun k g => (ofLex k).1 = id ∧ g.state.live ∧ db.ownsTailnet actor (ofLex k).2

def NodeReport.restrict (report : NodeReport) (own : String → Bool) : NodeReport :=
  { report with
    traffic := report.traffic.filter fun t => own t.tailnetID
    activeConnections := none }

/-- The rate of one tailnet between two reports that count with one counter. -/
def tailnetRate (seconds : ℚ) (before : Option TailnetTraffic) (now : TailnetTraffic) :
    Option TailnetRate := do
  let old ← before
  guard (now.counterID ≠ 0 ∧ now.counterID = old.counterID ∧
    old.rxPayloadBytes ≤ now.rxPayloadBytes ∧ old.txPayloadBytes ≤ now.txPayloadBytes)
  pure ⟨now.tailnetID, (now.rxPayloadBytes - old.rxPayloadBytes : ℕ) * 8 / seconds,
    (now.txPayloadBytes - old.txPayloadBytes : ℕ) * 8 / seconds, seconds⟩

/-- The rates of the shown tailnets since the previous report, which is not restricted: of several
counts of one tailnet the last is taken. -/
def trafficRates (report : NodeReport) (previous : Option NodeReport) : List TailnetRate :=
  match previous with
  | none => []
  | some previous =>
    let seconds : ℚ :=
      (Reading.ofWall report.observedAt.time).sub (.ofWall previous.observedAt.time) / second
    if 0 < seconds then
      report.traffic.filterMap fun t =>
        tailnetRate seconds (previous.traffic.reverse.find? fun x => x.tailnetID = t.tailnetID) t
    else []

/-- The loop over the shown grants; `now` gives the readings that are still to be taken. -/
def grantStatuses : (ℕ → Int) → List GrantPolicy → List GrantStatus
  | _, [] => []
  | now, g :: gs =>
    { grantID := g.grantID, tailnetID := g.tailnetID
      lastIdentitySuccess := g.lastIdentitySuccess, identityUntil := g.identityUntil
      controlUntil := g.controlUntil, explicitUntil := g.explicitUntil
      validKeys := g.keys.zipIdx.countP fun x => now x.2 < effectiveUntil g x.1 } ::
    grantStatuses (fun i => now (i + g.keys.length)) gs

def visibleGrants (E : Env) (id : String) (row : Option PolicyRow) (visible : String → Bool) :
    Except Err (List GrantPolicy) :=
  match row.bind (·.policyJSON) with
  | none => .ok []
  | some body => do
    let p ← decodePolicy E body id
    pure (p.grants.filter fun g => visible g.tailnetID)

/-- The status of a node, with the grants and the report that are shown. -/
def statusOf (c : Clock) (id : String) (n : Node) (row : Option PolicyRow)
    (grants : List GrantPolicy) (observed current : Option Observation)
    (report : Option NodeReport) (instance_ : String) (streamOpen : Bool) : NodeStatus :=
  let statuses := grantStatuses (fun i => c.read (i + 1)) grants
  { node := n.view id (c.read 0)
    desiredRevision := (row.map (·.desiredRevision)).getD 0
    receivedRevision := (row.map (·.receivedRevision)).getD 0
    appliedRevision := (row.map (·.appliedRevision)).getD 0
    reportedUsable := (row.map (·.derperUsable)).getD false
    policyHasLiveKeys := statuses.any fun s => 0 < s.validKeys
    controlStreamOpen := streamOpen
    domainVerifiedAt := n.domainVerifiedAt
    instanceID := instance_
    grants := statuses
    report := report
    reportedAt := (current.map (·.reportedAt)).getD 0
    probes := observed.bind (·.probesJSON)
    trafficRates :=
      (report.map fun r => trafficRates r (current.bind (·.previousReportJSON))).getD [] }

/-- `streamOpen` is whether the node's control stream is open. -/
def nodeStatus (E : Env) (c : Clock) (actor : Actor) (id : String) (streamOpen : Bool) (db : DB) :
    Except Err NodeStatus := do
  requireOwner actor actor.id
  let n ← orElse (db.nodes.get? id) .noRows
  let owner := (requireOwner actor n.ownerID).isOk
  require (owner ∨ db.participates actor id) .forbidden
  let observed := db.observations.get? id
  let current := observed.filter fun o => o.reportInstance = n.instanceID
  let report := (current.bind (·.reportJSON)).map fun report =>
    if owner then report else report.restrict (db.ownsTailnet actor)
  let row := db.policies.get? id
  let grants ← visibleGrants E id row fun t =>
    db.ownsTailnet actor t || (owner && (db.tailnets.get? t).isSome)
  pure (statusOf c id n row grants observed current report (if owner then n.instanceID else "")
    streamOpen)

end UniDERP
