import UniDERP.Control.Effects

namespace UniDERP

def Op.actor : Op → Option Actor
  | .createAccount actor .. | .setUserRole actor .. | .changePassword actor ..
  | .setUserEnabled actor .. | .setRetentions actor _ | .createNode actor ..
  | .issueEnrollment actor .. | .recoverNodeInstance actor .. | .setNodePorts actor ..
  | .setNodeEnabled actor .. | .deleteNode actor .. | .changeNodeDomain actor ..
  | .saveProbes actor .. | .setNodeQoS actor .. | .setTailnetEnabled actor ..
  | .deleteTailnet actor _ | .transferTailnet actor .. | .addTailnet actor ..
  | .replaceCommit actor .. | .deleteCredential actor _ | .requestGrant actor ..
  | .applyGrantAction actor .. => some actor
  | _ => none

def Actor.answersFor (actor : Actor) (ownerID : String) : Prop :=
  actor.role = .admin ∨ actor.id = ownerID

def AnswersForNode (db : DB) (actor : Actor) (id : String) : Prop :=
  ∃ n, db.nodes.get? id = some n ∧ actor.answersFor n.ownerID

def AnswersForTailnet (db : DB) (actor : Actor) (id : String) : Prop :=
  ∃ tn, db.tailnets.get? id = some tn ∧ actor.answersFor tn.ownerID

/-- Whose decision a transaction is: the tables are those it finds, and those it leaves where it
adds the resource. -/
def Entitled (db db' : DB) (actor : Actor) : Op → Prop
  | .createAccount .. | .setUserRole .. | .setUserEnabled .. | .setRetentions ..
  | .transferTailnet .. => actor.role = .admin
  | .changePassword _ userID .. => actor.answersFor userID
  | .createNode _ _ _ _ _ id _ => (actor.role = .admin ∨ actor.role = .provider) ∧
      ∃ n, db'.nodes.get? id.text = some n ∧ n.ownerID = actor.id
  | .addTailnet _ _ _ id .. => ∃ tn, db'.tailnets.get? id.text = some tn ∧ tn.ownerID = actor.id
  | .issueEnrollment _ id _ | .recoverNodeInstance _ id _ | .setNodePorts _ id ..
  | .setNodeEnabled _ id _ | .deleteNode _ id _ | .changeNodeDomain _ id .. | .saveProbes _ id ..
  | .setNodeQoS _ id _ => AnswersForNode db actor id
  | .replaceCommit _ id .. | .deleteCredential _ id | .setTailnetEnabled _ id _
  | .deleteTailnet _ id => AnswersForTailnet db actor id
  | .requestGrant _ _ tailnet .. => AnswersForTailnet db actor tailnet
  | .applyGrantAction _ id _ action => ∃ k g, db.grants.get? k = some g ∧ g.id = id ∧
      if action ∈ [.approve, .reject, .revoke] then AnswersForNode db actor (ofLex k).1
      else AnswersForTailnet db actor (ofLex k).2
  | _ => True

section Check

variable {E : Env} {c : Clock} {db db' : DB} {actor : Actor}

theorem Permitted.answersFor {ownerID : String} (h : Permitted actor ownerID) :
    actor.answersFor ownerID := h.2.2

theorem ownedNode_answers {id : String} {n : Node} (h : ownedNode actor id db = .ok n) :
    Active actor db ∧ AnswersForNode db actor id := by
  obtain ⟨hactive, hn, hpermitted⟩ := ownedNode_eq_ok.mp h
  exact ⟨hactive, n, hn, hpermitted.answersFor⟩

theorem tailnetOwner_answers {id : String} {tn : Tailnet} (h : tailnetOwner actor id db = .ok tn) :
    Active actor db ∧ AnswersForTailnet db actor id := by
  obtain ⟨hactive, htn, hpermitted⟩ := tailnetOwner_eq_ok.mp h
  exact ⟨hactive, tn, htn, hpermitted.answersFor⟩

/-- Every transaction makes its checks, whatever it then finds. -/
theorem exec_checks {op : Op} {reply : Reply} (h : exec E c op db = .ok (db', reply))
    (hactor : op.actor = some actor) : Active actor db ∧ Entitled db db' actor op := by
  cases op <;> simp only [Op.actor, Option.some.injEq, reduceCtorEq] at hactor <;> subst hactor <;>
    simp only [exec, quiet_eq_ok, answer_eq_ok] at h
  -- Every transaction asks for the account first; what follows is the check of its own.
  case createAccount =>
    simp only [createAccount, requireAdmin, createUser, Except_bind_eq_ok, require_eq_ok,
      activeActor_eq_ok, exists_const] at h
    obtain ⟨⟨⟨-, hadmin⟩, -, -, -, hactive, -⟩, -⟩ := h
    exact ⟨hactive, hadmin⟩
  case setUserRole =>
    simp only [setUserRole, requireAdmin, Except_bind_eq_ok, require_eq_ok, activeActor_eq_ok,
      exists_const] at h
    obtain ⟨⟨⟨-, hadmin⟩, -, hactive, -⟩, -⟩ := h
    exact ⟨hactive, hadmin⟩
  case changePassword =>
    simp only [changePassword, Except_bind_eq_ok, require_eq_ok, activeActor_eq_ok,
      requireOwner_eq_ok, exists_const] at h
    obtain ⟨⟨hpermitted, -, hactive, -⟩, -⟩ := h
    exact ⟨hactive, hpermitted.answersFor⟩
  case setUserEnabled =>
    simp only [setUserEnabled, requireAdmin, Except_bind_eq_ok, require_eq_ok, activeActor_eq_ok,
      exists_const] at h
    obtain ⟨⟨⟨-, hadmin⟩, hactive, -⟩, -⟩ := h
    exact ⟨hactive, hadmin⟩
  case setRetentions =>
    simp only [setRetentions, requireAdmin, Except_bind_eq_ok, require_eq_ok, activeActor_eq_ok,
      exists_const] at h
    obtain ⟨⟨⟨-, hadmin⟩, -, hactive, -⟩, -⟩ := h
    exact ⟨hactive, hadmin⟩
  case createNode =>
    simp only [createNode, Except_bind_eq_ok, require_eq_ok, orElse_eq_ok, activeActor_eq_ok,
      requireOwner_eq_ok, exists_const, issueCode_eq_ok] at h
    obtain ⟨_, ⟨hrole, -, normal, -, hactive, -, region, -, -, -, -, rfl⟩, -⟩ := h
    exact ⟨hactive, hrole, _, Table.get?_insert_self _ _ _, rfl⟩
  case issueEnrollment =>
    simp only [issueEnrollment, Except_bind_eq_ok, orElse_eq_ok, activeActor_eq_ok,
      requireOwner_eq_ok, exists_const] at h
    obtain ⟨_, ⟨hactive, n, hn, hpermitted, -⟩, -⟩ := h
    exact ⟨hactive, n, hn, hpermitted.answersFor⟩
  case recoverNodeInstance =>
    simp only [recoverNodeInstance, Except_bind_eq_ok, require_eq_ok, orElse_eq_ok,
      activeActor_eq_ok, requireOwner_eq_ok, exists_const] at h
    obtain ⟨⟨-, hactive, n, hn, hpermitted, -⟩, -⟩ := h
    exact ⟨hactive, n, hn, hpermitted.answersFor⟩
  case setNodePorts =>
    simp only [setNodePorts, Except_bind_eq_ok, require_eq_ok, exists_const] at h
    obtain ⟨⟨-, n, hn, -⟩, -⟩ := h
    exact ownedNode_answers hn
  case setNodeEnabled =>
    simp only [setNodeEnabled, Except_bind_eq_ok] at h
    obtain ⟨⟨n, hn, -⟩, -⟩ := h
    exact ownedNode_answers hn
  case deleteNode =>
    simp only [deleteNode, Except_bind_eq_ok] at h
    obtain ⟨⟨n, hn, -⟩, -⟩ := h
    exact ownedNode_answers hn
  case changeNodeDomain =>
    simp only [changeNodeDomain, Except_bind_eq_ok] at h
    obtain ⟨⟨normal, -, n, hn, -⟩, -⟩ := h
    exact ownedNode_answers hn
  case saveProbes =>
    simp only [saveProbes, Except_bind_eq_ok] at h
    obtain ⟨⟨n, hn, -⟩, -⟩ := h
    exact ownedNode_answers hn
  case setNodeQoS =>
    simp only [setNodeQoS, Except_bind_eq_ok] at h
    obtain ⟨⟨_, -, n, hn, -⟩, -⟩ := h
    exact ownedNode_answers hn
  case setTailnetEnabled =>
    simp only [setTailnetEnabled, Except_bind_eq_ok] at h
    obtain ⟨⟨tn, htn, -⟩, -⟩ := h
    exact tailnetOwner_answers htn
  case deleteTailnet =>
    simp only [deleteTailnet, Except_bind_eq_ok] at h
    obtain ⟨⟨tn, htn, -⟩, -⟩ := h
    exact tailnetOwner_answers htn
  case transferTailnet =>
    simp only [transferTailnet, Except_bind_eq_ok, require_eq_ok, exists_const] at h
    obtain ⟨⟨⟨hadmin, -⟩, tn, htn, -⟩, -⟩ := h
    exact ⟨(tailnetOwner_answers htn).1, hadmin⟩
  case addTailnet actor name _ id _ _ =>
    simp only [addTailnet, Except_bind_eq_ok, require_eq_ok, orElse_eq_ok, activeActor_eq_ok,
      requireOwner_eq_ok, exists_const] at h
    obtain ⟨⟨-, apiID, -, -, hactive, -, -, h⟩, -⟩ := h
    obtain ⟨events, hrebuilt⟩ := publishIdentity_ok h
    refine ⟨hactive, { ownerID := actor.id, displayName := name, apiID := apiID }, ?_, rfl⟩
    rw [hrebuilt.frame]
    exact Table.get?_insert_self _ _ _
  case replaceCommit =>
    simp only [replaceCommit, Except_bind_eq_ok] at h
    obtain ⟨⟨tn, htn, -⟩, -⟩ := h
    exact tailnetOwner_answers htn
  case deleteCredential =>
    simp only [deleteCredential, Except_bind_eq_ok] at h
    obtain ⟨⟨tn, htn, -⟩, -⟩ := h
    exact tailnetOwner_answers htn
  case requestGrant =>
    simp only [requestGrant, Except_bind_eq_ok, require_eq_ok, activeActor_eq_ok, parties_eq_ok,
      requireOwner_eq_ok, exists_const] at h
    obtain ⟨_, ⟨-, hactive, ps, ⟨-, htn, -⟩, hpermitted, -⟩, -⟩ := h
    exact ⟨hactive, ps.tailnet, htn, hpermitted.answersFor⟩
  case applyGrantAction id expected action =>
    simp only [applyGrantAction, Except_bind_eq_ok, require_eq_ok, activeActor_eq_ok,
      requireOwner_eq_ok, exists_const, Prod.exists] at h
    obtain ⟨_, ⟨-, hactive, k, g, ps, hfound, hpermitted, -⟩, -⟩ := h
    obtain ⟨hg, hid, hps⟩ := grantByID_eq_ok hfound
    obtain ⟨hn, htn, -⟩ := parties_eq_ok.mp hps
    refine ⟨hactive, k, g, hg, hid, ?_⟩
    -- The node's owner decides on three of the actions, the tailnet's on the others.
    have hanswers := hpermitted.answersFor
    cases action
    case approve | reject | revoke => exact ⟨ps.node, hn, hanswers⟩
    case confirm | cancel | leave => exact ⟨ps.tailnet, htn, hanswers⟩

/-- Whoever a transaction is called for, other than the local administrator, when it commits their
account is stored, enabled and of the same role, and the decision is theirs. -/
theorem Step.authorized {a : Commit} (h : Step E db a db') (hactor : a.op.actor = some actor)
    (hlocal : actor.id ≠ "local") :
    (∃ u, db.users.get? actor.id = some u ∧ u.enabled ∧ u.role = actor.role) ∧
      Entitled db db' actor a.op := by
  obtain ⟨hactive, hentitled⟩ := exec_checks h hactor
  exact ⟨hactive.resolve_left hlocal, hentitled⟩

/-- The owner of the first tailnet asks for the node. -/
theorem first_request_authorized : ∃ db db' reply, Step Env.plain db
      ⟨.requestGrant First.admin First.node.text First.tailnet.text 0 zeroTime First.grant,
        First.clock, reply⟩ db' ∧
    (∃ u, db.users.get? First.admin.id = some u ∧ u.enabled ∧ u.role = .admin) ∧
    AnswersForTailnet db First.admin First.tailnet.text := by
  have hrun : ((replay Env.plain First.clock (First.enrolling ++ First.granting)
      DB.empty).map fun _ => ()) = .ok () := by
    decide +kernel
  obtain ⟨db, hdb, -⟩ := Except_map_eq_ok.mp hrun
  obtain ⟨r, hlen, -, hlabel⟩ := replay_run hdb
  obtain ⟨hop, hclock⟩ := hlabel 5 _ rfl
  have hstep := r.next 5 (by rw [hlen]; decide)
  have hauthorized := hstep.authorized (by rw [hop]; rfl) (by decide +kernel)
  rw [hop] at hauthorized
  refine ⟨r.state 5, r.state 6, (r.label 5).reply, ?_, hauthorized⟩
  rw [← hop, ← hclock]
  exact hstep

end Check
end UniDERP
