import UniDERP.Control.Calls
import UniDERP.Control.Revisions

namespace UniDERP

def Op.issues (code : String) : Op → Bool
  | .createNode _ _ _ _ _ _ token => token.text = code
  | .issueEnrollment _ _ token => token.text = code
  | _ => false

def Op.removes (id : String) : Op → Bool
  | .deleteNode _ k _ => k = id
  | .changeNodeDomain _ k _ _ => k = id
  | _ => false

/-- The request consumes its code, rather than repeating an earlier answer. -/
def Enrolls (db : DB) (a : Commit) (req : EnrollmentRequest) (s : NodeSession) : Prop :=
  (∃ token box, a.op = .enrollCommit req token box) ∧ a.reply = .session s ∧
    ∃ e, db.enrollments.get? req.challenge.nodeID = some e ∧ e.consumedAt = 0

section Codes

variable {E : Env} {c : Clock} {db mid db' : DB} {op : Op} {reply : Reply} {S : String → Prop}

inductive CodeEdit (E : Env) (c : Clock) (db : DB) (op : Op) (reply : Reply) :
    Table String Enrollment → Prop
  | keep : CodeEdit E c db op reply db.enrollments
  | issue {id : String} {code : Token} {e : Enrollment} (issues : op.issues code.text)
      (codeHash : e.codeHash = E.tokenHash code.text) (unused : e.consumedAt = 0)
      (retires : db.nodes.get? id = none ∨ Reissues E c db op id)
      (unique : ∀ k e, k ≠ id → db.enrollments.get? k = some e →
        e.codeHash ≠ E.tokenHash code.text) :
      CodeEdit E c db op reply (db.enrollments.insert id e)
  | erase {id : String} (retires : Reissues E c db op id ∨ op.removes id) :
      CodeEdit E c db op reply (db.enrollments.erase id)
  | consume {req : EnrollmentRequest} {box : Bytes} {s : NodeSession} {e : Enrollment}
      (enrolls : Enrolls db ⟨op, c, reply⟩ req s)
      (row : db.enrollments.get? req.challenge.nodeID = some e)
      (code : e.codeHash = E.tokenHash req.code) (unused : e.consumedAt = 0) :
      CodeEdit E c db op reply (db.enrollments.insert req.challenge.nodeID { e with
        consumedAt := unix (c.read 10), requestHash := some (E.enrollmentDigest req)
        responseEncrypted := some (E.sealSession req.challenge.nodeID box s) })

theorem Effect.code_edit (h : Effect E c db op reply mid S) :
    CodeEdit E c db op reply mid.enrollments := by
  cases h
  case createNode n fresh _ _ _ unique =>
    exact .issue (by simp [Op.issues]) rfl rfl (.inl fresh) unique
  case issueEnrollment unique =>
    exact .issue (by simp [Op.issues]) rfl rfl (.inr (.inl ⟨_, _, rfl⟩)) unique
  case reissueEnrollment actor id code _ n _ _ _ _ unique =>
    have hinsert : ∀ e, ((db.release id).enrollments.insert id e) = db.enrollments.insert id e := by
      intro e
      ext k : 1
      by_cases hk : k = id
      · simp [hk]
      · rw [Table.get?_insert_ne _ _ hk, Table.get?_insert_ne _ _ hk]
        exact Table.get?_erase_ne _ hk
    dsimp only
    rw [hinsert]
    exact .issue (by simp [Op.issues]) rfl rfl (.inr (.inl ⟨_, _, rfl⟩)) unique
  case leaveNode s n hsession => exact .erase (.inl (.inr ⟨_, s, n, rfl, hsession, rfl⟩))
  case enroll req token box s n e hn _ _ _ he hcode hunused _ _ _ _ _ _ =>
    dsimp only
    rw [Table.modify_eq_insert _ he]
    exact .consume ⟨⟨token, box, rfl⟩, rfl, e, he, hunused⟩ he hcode hunused
  case deleteNode => exact .erase (.inr (by simp [Op.removes]))
  case changeNodeDomain => exact .erase (.inr (by simp [Op.removes]))
  all_goals exact .keep

theorem Step.code_edit {a : Commit} (h : Step E db a db') :
    CodeEdit E a.clock db a.op a.reply db'.enrollments := by
  obtain ⟨mid, S, i, he, hr⟩ := exec_does h
  rw [hr.frame]
  exact he.code_edit

def Consumed (E : Env) (db : DB) (code : String) : Prop :=
  ∀ id e, db.enrollments.get? id = some e → e.codeHash = E.tokenHash code → e.consumedAt ≠ 0

def UniqueCodes (db : DB) : Prop := ∀ id id' e e', db.enrollments.get? id = some e →
  db.enrollments.get? id' = some e' → e.codeHash = e'.codeHash → id = id'

theorem Step.unique_codes {a : Commit} (h : Step E db a db') (hu : UniqueCodes db) :
    UniqueCodes db' := by
  intro id id' e e' he he' hcode
  have hedit := Step.code_edit h
  generalize db'.enrollments = t at hedit he he'
  cases hedit with
  | keep => exact hu id id' e e' he he' hcode
  | erase =>
    exact hu id id' e e' (Table.get?_delete_eq_some.mp he).1 (Table.get?_delete_eq_some.mp he').1
      hcode
  | issue _ hnew _ _ hunique =>
    rcases Table.get?_insert_eq_some.mp he with ⟨rfl, rfl⟩ | ⟨hk, hold⟩ <;>
      rcases Table.get?_insert_eq_some.mp he' with ⟨rfl, rfl⟩ | ⟨hk', hold'⟩
    · rfl
    · exact absurd (hcode.symm.trans hnew) (hunique id' e' hk' hold')
    · exact absurd (hcode.trans hnew) (hunique id e hk hold)
    · exact hu id id' e e' hold hold' hcode
  | consume _ hrow =>
    rcases Table.get?_insert_eq_some.mp he with ⟨rfl, rfl⟩ | ⟨hk, hold⟩ <;>
      rcases Table.get?_insert_eq_some.mp he' with ⟨rfl, rfl⟩ | ⟨hk', hold'⟩
    · rfl
    · exact hu _ id' _ e' hrow hold' hcode
    · exact hu id _ e _ hold hrow hcode
    · exact hu id id' e e' hold hold' hcode

theorem Store.Reachable.unique_codes (h : Store.Reachable E db) : UniqueCodes db := by
  refine Reachable.invariant h ?_ fun s a s' _ hs hstep => Step.unique_codes hstep hs
  rintro s rfl id id' e e' he
  simp [DB.empty] at he

theorem Step.consumed {a : Commit} {code : String} (h : Step E db a db')
    (hc : Consumed E db code) (hnot : ¬ a.op.issues code) : Consumed E db' code := by
  intro id e he hcode
  have hedit := Step.code_edit h
  generalize db'.enrollments = t at hedit he
  cases hedit with
  | keep => exact hc id e he hcode
  | erase => exact hc id e (Table.get?_delete_eq_some.mp he).1 hcode
  | issue hissues hnew =>
    rcases Table.get?_insert_eq_some.mp he with ⟨rfl, rfl⟩ | ⟨hk, he⟩
    · rw [E.tokenHash_injective (hnew.symm.trans hcode)] at hissues
      exact absurd hissues hnot
    · exact hc id e he hcode
  | consume _ hrow =>
    rcases Table.get?_insert_eq_some.mp he with ⟨rfl, rfl⟩ | ⟨hk, he⟩
    · exact (a.clock.unix_pos 10).ne'
    · exact hc id e he hcode

theorem Step.issued {a : Commit} {code : String} (h : Step E db a db') (hi : a.op.issues code) :
    ∃ id e, db'.enrollments.get? id = some e ∧ e.codeHash = E.tokenHash code ∧
      e.consumedAt = 0 := by
  obtain ⟨mid, S, i, he, hr⟩ := exec_does h
  obtain ⟨op, c, reply⟩ := a
  rw [hr.frame]
  cases he
  case createNode id code' _ n _ _ _ _ _ =>
    exact ⟨id.text, _, Table.get?_insert_self _ _ _, congrArg _ (of_decide_eq_true hi), rfl⟩
  case issueEnrollment id code' _ n _ _ _ _ _ =>
    exact ⟨id, _, Table.get?_insert_self _ _ _, congrArg _ (of_decide_eq_true hi), rfl⟩
  case reissueEnrollment id code' _ n _ _ _ _ _ =>
    exact ⟨id, _, Table.get?_insert_self _ _ _, congrArg _ (of_decide_eq_true hi), rfl⟩
  case idle hrepeatable _ => cases op <;> simp_all [Op.issues, Op.repeatable]
  case sessions hlogin => cases op <;> simp_all [Op.issues, Op.login]
  case ports hport _ => cases op <;> simp_all [Op.issues, Op.portChange]
  all_goals simp [Op.issues] at hi

end Codes

section Answers

variable {E : Env} {db db' : DB} {a : Commit} {req : EnrollmentRequest} {s : NodeSession}

theorem enrollmentReceipt_eq_some {now now' : Int} :
    enrollmentReceipt E now now' req db = .ok (some s) ↔ ∃ e n data,
      db.enrollments.get? req.challenge.nodeID = some e ∧
      db.nodes.get? req.challenge.nodeID = some n ∧
      (e.ownerID = n.ownerID ∧ e.codeHash = E.tokenHash req.code ∧ unix now < e.expiresAt ∧
        db.userEnabled n.ownerID) ∧ e.consumedAt ≠ 0 ∧
      e.requestHash = some (E.enrollmentDigest req) ∧ e.responseEncrypted = some data ∧
      E.openSession req.challenge.nodeID data = some s ∧ now' < s.expiresAt := by
  simp only [enrollmentReceipt, Except_bind_eq_ok, orElse_eq_ok, require_eq_ok, exists_const]
  constructor
  · rintro ⟨e, he, n, hn, hrow, h⟩
    split_ifs at h with hc
    · cases Except_pure_eq_ok.mp h
    · simp only [Except_bind_eq_ok, orElse_eq_ok, require_eq_ok, exists_const, Except_pure_eq_ok,
        Option.some.injEq] at h
      obtain ⟨hhash, data, hdata, _, hopen, hexp, rfl⟩ := h
      exact ⟨e, n, data, he, hn, hrow, hc, hhash, hdata, hopen, hexp⟩
  · rintro ⟨e, n, data, he, hn, hrow, hc, hhash, hdata, hopen, hexp⟩
    refine ⟨e, he, n, hn, hrow, ?_⟩
    rw [if_neg hc]
    simp only [Except_bind_eq_ok, orElse_eq_ok, require_eq_ok, exists_const, Except_pure_eq_ok,
      Option.some.injEq]
    exact ⟨hhash, data, hdata, s, hopen, hexp, rfl⟩

def Enrollment.Answers (E : Env) (e : Enrollment) (req : EnrollmentRequest) (s : NodeSession) :
    Prop :=
  e.codeHash = E.tokenHash req.code ∧ e.consumedAt ≠ 0 ∧
    e.requestHash = some (E.enrollmentDigest req) ∧
    ∃ data, e.responseEncrypted = some data ∧ E.openSession req.challenge.nodeID data = some s

def Receipted (E : Env) (db : DB) (req : EnrollmentRequest) (s : NodeSession) : Prop :=
  ∃ e, db.enrollments.get? req.challenge.nodeID = some e ∧ e.Answers E req s

theorem receipted_of_receipt {now now' : Int}
    (h : enrollmentReceipt E now now' req db = .ok (some s)) : Receipted E db req s := by
  obtain ⟨e, n, data, he, -, ⟨-, hcode, -, -⟩, hc, hhash, hdata, hopen, -⟩ :=
    enrollmentReceipt_eq_some.mp h
  exact ⟨e, he, hcode, hc, hhash, data, hdata, hopen⟩

theorem receipted_of_check {c : Clock} (h : enrollCheck E c req db = .ok (some s)) :
    Receipted E db req s := by
  simp only [enrollCheck, Except_bind_eq_ok, require_eq_ok, exists_const] at h
  obtain ⟨-, receipt, hreceipt, h⟩ := h
  cases receipt with
  | none => simp at h
  | some s' =>
    obtain rfl := Option.some.inj (Except_pure_eq_ok.mp h)
    exact receipted_of_receipt hreceipt

/-- An answer is kept from the transaction that gave it. -/
theorem Step.receipted (h : Step E db a db') (hr : Receipted E db' req s) :
    Receipted E db req s ∨ Enrolls db a req s := by
  obtain ⟨e, he, hanswers⟩ := hr
  have hedit := Step.code_edit h
  generalize db'.enrollments = t at hedit he
  cases hedit with
  | keep => exact .inl ⟨e, he, hanswers⟩
  | erase => exact .inl ⟨e, (Table.get?_delete_eq_some.mp he).1, hanswers⟩
  | issue _ _ hunused =>
    rcases Table.get?_insert_eq_some.mp he with ⟨-, rfl⟩ | ⟨-, he⟩
    · exact absurd hunused hanswers.2.1
    · exact .inl ⟨e, he, hanswers⟩
  | consume henrolls =>
    rcases Table.get?_insert_eq_some.mp he with ⟨hid, rfl⟩ | ⟨-, he⟩
    · obtain ⟨-, -, hdigest, data, hdata, hopen⟩ := hanswers
      -- The digest names the request, and the sealed session is the one that was answered.
      obtain rfl := E.enrollmentDigest_injective (Option.some.inj hdigest)
      obtain rfl := Option.some.inj hdata
      rw [E.openSession_sealSession, Option.some.injEq] at hopen
      exact .inr (hopen ▸ henrolls)
    · exact .inl ⟨e, he, hanswers⟩

theorem Step.not_receipted (h : Step E db a db') (hu : UniqueCodes db')
    (hi : a.op.issues req.code) : ¬ Receipted E db' req s := by
  rintro ⟨e, he, hcode, hconsumed, -⟩
  obtain ⟨id, e', he', hcode', hunused⟩ := Step.issued h hi
  obtain rfl := hu _ _ _ _ he he' (hcode.trans hcode'.symm)
  cases he.symm.trans he'
  exact hconsumed hunused

end Answers

section Binding

variable {E : Env} {c : Clock} {db mid db' : DB} {op : Op} {reply : Reply} {S : String → Prop}
  {a : Commit} {req : EnrollmentRequest} {s : NodeSession} {id : String}

/-- The request can be sent again: its answer is stored until `expires`. -/
def Answerable (E : Env) (db : DB) (req : EnrollmentRequest) (s : NodeSession) (expires : Int) :
    Prop :=
  ∃ e n, db.enrollments.get? req.challenge.nodeID = some e ∧
    db.nodes.get? req.challenge.nodeID = some n ∧ e.Answers E req s ∧ e.ownerID = n.ownerID ∧
    e.expiresAt = expires ∧ db.userEnabled n.ownerID

/-- What a request that consumes its code has shown, and what it leaves. -/
structure Binds (E : Env) (c : Clock) (db db' : DB) (req : EnrollmentRequest) (s : NodeSession)
    (expires : Int) : Prop where
  node : ∃ n, db.nodes.get? req.challenge.nodeID = some n ∧ n.domain = req.challenge.domain ∧
    (n.publicKey = none ∨ n.publicKey = some req.challenge.publicKey)
  purpose : req.challenge.purpose = .enroll
  usable : Usable E (c.read 2) (c.read 3) req.challenge req.signature db
  code : ∃ e, db.enrollments.get? req.challenge.nodeID = some e ∧
    e.codeHash = E.tokenHash req.code ∧ e.consumedAt = 0 ∧ e.expiresAt = expires
  unexpired : unix (c.read 0) < expires
  minted : ∃ token : Token, s = ⟨E.clusterID, req.challenge.nodeID, req.challenge.instanceID,
    token.text, truncate (c.read 8 + 3600 * second), truncate (c.read 9 + 90 * second)⟩
  bound : ∃ n, db'.nodes.get? req.challenge.nodeID = some n ∧
    n.publicKey = some req.challenge.publicKey ∧ n.instanceID = req.challenge.instanceID
  answerable : Answerable E db' req s expires

theorem Effect.binds (h : Effect E c db op reply mid S) (he : Enrolls db ⟨op, c, reply⟩ req s) :
    ∃ expires, Binds E c db mid req s expires := by
  obtain ⟨⟨token, box, hop⟩, hreply, e₀, he₀, hunused₀⟩ := he
  cases h
  case idle hrepeatable _ =>
    subst hop
    cases hrepeatable
  case sessions => cases hreply
  case ports => cases hreply
  case receipt hreceipt =>
    cases hop
    obtain ⟨e, n, data, he, -, -, hconsumed, -⟩ := enrollmentReceipt_eq_some.mp hreceipt
    cases he.symm.trans he₀
    exact absurd hunused₀ hconsumed
  case enroll n e hn hdomain _ hkey he hcode hunused hexp husable hpurpose hminted _ howner =>
    cases hop
    cases hreply
    refine ⟨e.expiresAt, ⟨n, hn, hdomain, hkey⟩, hpurpose, husable, ⟨e, he, hcode, hunused, rfl⟩,
      hexp, ⟨token, hminted⟩, ⟨_, Table.get?_insert_self _ _ _, rfl, rfl⟩, ?_⟩
    refine ⟨_, _, (Table.get?_modify_self _ _ _).trans (congrArg _ he),
      Table.get?_insert_self _ _ _, ⟨hcode, (c.unix_pos 10).ne', rfl, _, rfl, ?_⟩, howner.1, rfl,
      howner.2⟩
    exact E.openSession_sealSession _ _ _
  all_goals cases hop

theorem Step.binds (h : Step E db a db') (he : Enrolls db a req s) :
    ∃ expires, Binds E a.clock db db' req s expires := by
  obtain ⟨mid, S, i, heffect, hr⟩ := exec_does h
  obtain ⟨expires, hb⟩ := heffect.binds he
  rw [hr.frame]
  exact ⟨expires, hb.node, hb.purpose, hb.usable, hb.code, hb.unexpired, hb.minted, hb.bound,
    hb.answerable⟩

theorem Step.answered {token : Token} {box : Bytes}
    (h : Step E db ⟨.enrollCommit req token box, c, .session s⟩ db') :
    Enrolls db ⟨.enrollCommit req token box, c, .session s⟩ req s ∨ Receipted E db req s := by
  obtain ⟨mid, S, i, he, hr⟩ := exec_does h
  cases he
  case idle hrepeatable _ => cases hrepeatable
  case receipt hreceipt => exact .inr (receipted_of_receipt hreceipt)
  case enroll => exact .inl ⟨⟨token, box, rfl⟩, rfl, _, by assumption, by assumption⟩

theorem Effect.node_kept (h : Effect E c db op reply mid S) {n : Node}
    (hn : db.nodes.get? id = some n) : (∃ n', mid.nodes.get? id = some n') ∨ op.removes id := by
  cases h.node_edit id with
  | kept same => exact .inl ⟨n, same.trans hn⟩
  | deleted call => exact .inr (by simp [call, Op.removes])
  | created _ _ after => exact .inl ⟨_, after⟩
  | released _ _ after => exact .inl ⟨_, after⟩
  | enrolled _ _ _ _ _ _ _ after => exact .inl ⟨_, after⟩
  | renewed _ _ _ _ _ _ _ _ after => exact .inl ⟨_, after⟩
  | refused _ _ _ _ _ _ _ after => exact .inl ⟨_, after⟩
  | recovered _ _ _ _ _ after => exact .inl ⟨_, after⟩
  | moved _ _ _ _ _ after => exact .inl ⟨_, after⟩
  | ported _ after => exact .inl ⟨_, after⟩
  | switched _ _ after => exact .inl ⟨_, after⟩
  | heard _ _ after => exact .inl ⟨_, after⟩
  | acknowledged _ _ _ after => exact .inl ⟨_, after⟩

theorem Effect.created (h : Effect E c db op reply mid S) (hc : op.creates id) :
    db.nodes.get? id = none := by
  cases h
  case createNode fresh _ _ _ _ => rwa [← of_decide_eq_true hc]
  case idle hrepeatable _ => cases op <;> simp_all [Op.creates, Op.repeatable]
  case sessions hlogin => cases op <;> simp_all [Op.creates, Op.login]
  case ports hport _ => cases op <;> simp_all [Op.creates, Op.portChange]
  all_goals simp [Op.creates] at hc

/-- An account stays enabled until it is disabled. -/
theorem Effect.user_enabled (h : Effect E c db op reply mid S) (hu : db.userEnabled id) :
    mid.userEnabled id ∨ ∃ actor, op = .setUserEnabled actor id false := by
  obtain ⟨u, hget, henabled⟩ := userEnabled_eq_true.mp hu
  have hinsert : ∀ k (v : User), v.enabled → DB.userEnabled { db with
      users := db.users.insert k v } id := by
    intro k v hv
    refine userEnabled_eq_true.mpr ?_
    rw [Table.get?_insert]
    split_ifs
    · exact ⟨v, rfl, hv⟩
    · exact ⟨u, hget, henabled⟩
  -- Three calls change an account, and one of them takes the flag away.
  have hchange : ∀ k (f : User → User), (k = id → (f u).enabled) →
      (db.changeUser k f).userEnabled id := by
    intro k f hf
    refine userEnabled_eq_true.mpr ?_
    rw [DB.changeUser, Table.get?_modify, hget]
    split_ifs with hk
    · exact ⟨_, rfl, hf hk.symm⟩
    · exact ⟨u, rfl, henabled⟩
  cases h
  case initializeAdmin => exact .inl (hinsert _ _ rfl)
  case createAccount => exact .inl (hinsert _ _ rfl)
  case setUserRole => exact .inl (hchange _ _ fun _ => henabled)
  case changePassword => exact .inl (hchange _ _ fun _ => henabled)
  case setUserEnabled actor userID enabled =>
    by_cases hk : userID = id ∧ enabled = false
    · obtain ⟨rfl, rfl⟩ := hk
      exact .inr ⟨actor, rfl⟩
    · exact .inl (hchange _ _ fun he => by simpa [he] using hk)
  all_goals exact .inl hu

/-- The registration ends: a new code, a release, a deletion, another domain, or its owner's
account is disabled. -/
def Retires (E : Env) (db : DB) (a : Commit) (id : String) : Prop :=
  Reissues E a.clock db a.op id ∨ a.op.removes id ∨
    ∃ actor n, db.nodes.get? id = some n ∧ a.op = .setUserEnabled actor n.ownerID false

theorem Step.answerable {expires : Int} (h : Step E db a db')
    (hans : Answerable E db req s expires)
    (hnot : ¬ Retires E db a req.challenge.nodeID) : Answerable E db' req s expires := by
  obtain ⟨e, n, he, hn, hanswers, howner, hexpires, henabled⟩ := hans
  -- The row stays: only a new code or a retirement touches it, and it is consumed already.
  have hrow : db'.enrollments.get? req.challenge.nodeID = some e := by
    have hedit := Step.code_edit h
    generalize db'.enrollments = t at hedit
    cases hedit with
    | keep => exact he
    | erase hretires =>
      refine (Table.get?_erase_ne _ ?_).trans he
      rintro rfl
      exact hnot (hretires.imp_right .inl)
    | issue _ _ _ hretires =>
      refine (Table.get?_insert_ne _ _ ?_).trans he
      rintro rfl
      rcases hretires with hfresh | hreissues
      · simp [hn] at hfresh
      · exact hnot (.inl hreissues)
    | consume _ hrow _ hunused =>
      refine (Table.get?_insert_ne _ _ fun hid => ?_).trans he
      rw [← hid, he, Option.some.injEq] at hrow
      exact hanswers.2.1 (hrow ▸ hunused)
  obtain ⟨mid, S, i, heffect, hr⟩ := exec_does h
  rw [hr.frame] at hrow ⊢
  rcases heffect.node_kept hn with ⟨n', hn'⟩ | hremoves
  · rcases (heffect.node_edit _).origin hn' with hcreates | ⟨n₀, hn₀, hkeeps⟩
    · exact absurd hn (by simp [heffect.created hcreates])
    · cases hn.symm.trans hn₀
      rcases heffect.user_enabled henabled with henabled' | ⟨actor, hop⟩
      · exact ⟨e, n', hrow, hn', hanswers, howner.trans hkeeps.owner.symm, hexpires,
          hkeeps.owner ▸ henabled'⟩
      · exact absurd (.inr (.inr ⟨actor, n, hn, hop⟩)) hnot
  · exact absurd (.inr (.inl hremoves)) hnot

end Binding

section Challenges

variable {E : Env} {c : Clock} {db mid db' : DB} {op : Op} {reply : Reply} {S : String → Prop}
  {ch : NodeChallenge}

/-- `EnrollmentChallenge` answers with this challenge, for the node as it is. -/
def Challenges (db : DB) (a : Commit) (ch : NodeChallenge) : Prop :=
  (∃ code nonce, a.op = .enrollmentChallenge code ch.publicKey ch.instanceID nonce) ∧
    a.reply = .challenge ch ∧ ∃ n, db.nodes.get? ch.nodeID = some n ∧ n.domain = ch.domain

def Challenged (E : Env) (db : DB) (ch : NodeChallenge) : Prop :=
  ∃ row, db.challenges.get? (E.tokenHash ch.nonce) = some row ∧ row.payload = ch

theorem Effect.challenged (h : Effect E c db op reply mid S) (hp : ch.purpose = .enroll)
    (hch : Challenged E mid ch) : Challenged E db ch ∨ Challenges db ⟨op, c, reply⟩ ch := by
  obtain ⟨row', hrow', rfl⟩ := hch
  cases h.challenge_edit hrow' with
  | kept before => exact .inl ⟨row', before, rfl⟩
  | used i before after =>
    subst after
    exact .inl ⟨_, before, rfl⟩
  | enrollment call answer _ _ _ after node domain =>
    subst after
    exact .inr ⟨⟨_, _, call⟩, answer, _, node, domain.symm⟩
  | session _ _ purpose _ _ after =>
    subst after
    have hsession := purpose.symm.trans hp
    split_ifs at hsession

theorem Step.challenged {a : Commit} (h : Step E db a db') (hp : ch.purpose = .enroll)
    (hch : Challenged E db' ch) : Challenged E db ch ∨ Challenges db a ch := by
  obtain ⟨mid, S, i, he, hr⟩ := exec_does h
  rw [hr.frame] at hch
  exact he.challenged hp hch

end Challenges

/-- What a call of `EnrollNode` returns, with the request that it returns it for. -/
def World.returned (w : World) : Act × Option Reply → Option (EnrollmentRequest × NodeSession)
  | (.enrollBegin _ _ req, some (.session s)) => some (req, s)
  | (.enrollFinish call _ _ _, some (.session s)) => match w.flights.get? call with
    | some (.enroll req true) => some (req, s)
    | _ => none
  | _ => none

namespace World.Run

variable {E : Env} {r : World.Run E} {i j : ℕ} {a : Commit} {req : EnrollmentRequest}
  {s : NodeSession}

theorem unique_codes (hi : i ≤ r.len) : UniqueCodes (r.state i).db :=
  (store_reachable hi).unique_codes

theorem consumed (hi : i < r.len) (ha : r.commit i = some a)
    (he : Enrolls (r.state i).db a req s) : Consumed E (r.state (i + 1)).db req.code := by
  obtain ⟨expires, hb⟩ := Step.binds (step_of_commit hi ha) he
  obtain ⟨e, n, hrow, -, hanswers, -⟩ := hb.answerable
  intro id e' he' hcode
  obtain rfl := unique_codes hi _ _ _ _ hrow he' (hanswers.1.trans hcode.symm)
  cases hrow.symm.trans he'
  exact hanswers.2.1

theorem single_use {b : Commit} {req' : EnrollmentRequest} {s' : NodeSession} (hij : i < j)
    (hj : j < r.len) (ha : r.commit i = some a) (hb : r.commit j = some b)
    (he : Enrolls (r.state i).db a req s) (he' : Enrolls (r.state j).db b req' s')
    (hcode : req.code = req'.code) :
    ∃ k d, i < k ∧ k < j ∧ r.commit k = some d ∧ d.op.issues req.code := by
  by_contra hnone
  push Not at hnone
  have hconsumed : Consumed E (r.state j).db req.code :=
    db_preserved (P := fun db => Consumed E db req.code) hij (by omega)
      (consumed (by omega) ha he) fun k d hk hkj hd hc =>
        Step.consumed (step_of_commit (by omega) hd) hc (hnone k d hk hkj hd)
  obtain ⟨expires, hbinds⟩ := Step.binds (step_of_commit hj hb) he'
  obtain ⟨e, hrow, hhash, hunused, -⟩ := hbinds.code
  exact hconsumed _ e hrow (hcode ▸ hhash) hunused

/-- What is returned is the answer of the transaction, or of the call's own. -/
theorem receipted_of_returned (hj : j < r.len)
    (hret : (r.state j).returned (r.label j) = some (req, s)) :
    Receipted E (r.state j).db req s ∨
      ∃ a, r.commit j = some a ∧ Enrolls (r.state j).db a req s := by
  have hstep := r.next j hj
  obtain ⟨⟨act, reply⟩, hlabel⟩ : ∃ x, r.label j = x := ⟨_, rfl⟩
  rw [hlabel] at hret hstep
  unfold World.returned at hret
  -- A session is returned by the first transaction from the receipt, or by the second.
  split at hret
  case h_1 heq =>
    obtain ⟨rfl, rfl⟩ := Prod.mk.inj heq
    obtain ⟨rfl, rfl⟩ := Prod.mk.inj (Option.some.inj hret)
    simp only [World.Step, World.step, Option.bind_eq_bind, Option.bind_eq_some_iff,
      toOption_eq_some] at hstep
    obtain ⟨-, -, receipt, hcheck, h⟩ := hstep
    cases receipt with
    | none => simp at h
    | some s' =>
      simp only [Option.pure_def, Option.some.injEq, Prod.mk.injEq, Reply.session.injEq] at h
      obtain ⟨-, rfl⟩ := h
      exact .inl (receipted_of_check hcheck)
  case h_2 call c token box s' heq =>
    rw [heq] at hlabel
    split at hret
    case h_1 req' hflight =>
      have ha : r.commit j = some ⟨.enrollCommit req' token box, c, .session s'⟩ := by
        simp [commit, hlabel, World.committed, World.op, hflight]
      obtain ⟨rfl, rfl⟩ := Prod.mk.inj (Option.some.inj hret)
      rcases Step.answered (step_of_commit hj ha) with henrolls | hreceipted
      · exact .inr ⟨_, ha, henrolls⟩
      · exact .inl hreceipted
    case h_2 => cases hret
  case h_3 => cases hret

theorem returned_from (hj : j < r.len)
    (hret : (r.state j).returned (r.label j) = some (req, s)) :
    ∃ i a, i ≤ j ∧ r.commit i = some a ∧ Enrolls (r.state i).db a req s ∧
      ∀ k d, i < k → k < j → r.commit k = some d → ¬ d.op.issues req.code := by
  rcases receipted_of_returned hj hret with hreceipted | ⟨a, ha, he⟩
  · have h0 : ¬ Receipted E (r.state 0).db req s := by
      rw [r.start]
      rintro ⟨e, he, -⟩
      simp [DB.empty] at he
    obtain ⟨i, a, -, hij, ha, hnot, hall⟩ := db_established
      (P := fun db => Receipted E db req s) (Nat.zero_le j) (by omega) h0 hreceipted
    have hstep := step_of_commit (by omega) ha
    refine ⟨i, a, by omega, ha,
      (Step.receipted hstep (hall (i + 1) (by omega) hij)).resolve_left hnot, ?_⟩
    intro k d hik hkj hd hissues
    exact Step.not_receipted (step_of_commit (by omega) hd) (unique_codes (by omega)) hissues
      (hall (k + 1) (by omega) hkj)
  · exact ⟨j, a, le_rfl, ha, he, fun k d hjk hkj => absurd hkj (by omega)⟩

theorem challenged (hi : i < r.len) (ha : r.commit i = some a)
    (he : Enrolls (r.state i).db a req s) :
    ∃ k d, k < i ∧ r.commit k = some d ∧ Challenges (r.state k).db d req.challenge := by
  obtain ⟨expires, hb⟩ := Step.binds (step_of_commit hi ha) he
  obtain ⟨row, hrow, -, hpayload, -⟩ := hb.usable.row
  have h0 : ¬ Challenged E (r.state 0).db req.challenge := by
    rw [r.start]
    rintro ⟨row, hrow, -⟩
    simp [DB.empty] at hrow
  obtain ⟨k, d, -, hki, hd, hnot, hall⟩ := db_established
    (P := fun db => Challenged E db req.challenge) (Nat.zero_le i) hi.le h0 ⟨row, hrow, hpayload⟩
  exact ⟨k, d, hki, hd, (Step.challenged (step_of_commit (by omega) hd) hb.purpose
    (hall (k + 1) (by omega) hki)).resolve_left hnot⟩

/-- The call of a committed request verified the domain after it checked the challenge. -/
structure Verified (r : World.Run E) (req : EnrollmentRequest) (call b v i : ℕ) : Prop where
  order : b < v ∧ v < i
  checked : ∃ c, (r.label b).1 = .enrollBegin call c req ∧
    enrollCheck E c req (r.state b).db = .ok none
  verified : (r.label v).1 = .verifyDomain call ∧
    (r.state v).flights.get? call = some (.enroll req false)
  committed : ∃ c token box, (r.label i).1 = .enrollFinish call c token box ∧
    ∀ k, v < k → k ≤ i → (r.state k).flights.get? call = some (.enroll req true)

theorem verified (hi : i < r.len) (ha : r.commit i = some a)
    (he : Enrolls (r.state i).db a req s) : ∃ call b v, Verified r req call b v i := by
  obtain ⟨⟨token, box, hop⟩, -⟩ := he
  have harrives := arrives hi ha
  rw [hop] at harrives
  generalize hact : (r.label i).1 = act at harrives
  cases harrives with
  | whole hwhole => cases hwhole
  | @enroll call _ _ _ _ hflight =>
    obtain ⟨v, hvi, hv, hsince⟩ := departed hi.le hflight
    generalize hact' : (r.label v).1 = act' at hv
    generalize (r.label v).2 = reply' at hv
    cases hv with
    | enrollVerified hflight' =>
      obtain ⟨b, hbv, hb, -⟩ := departed (by omega) hflight'
      generalize hact'' : (r.label b).1 = act'' at hb
      generalize (r.label b).2 = reply'' at hb
      cases hb with
      | enroll hcheck =>
        exact ⟨call, b, v, ⟨hbv, hvi⟩, ⟨_, hact'', hcheck⟩, ⟨hact', hflight'⟩, _, _, _, hact,
          hsince⟩

theorem key_fixed {id : String} {n n' : Node} {key : Bytes} (hij : i ≤ j) (hj : j ≤ r.len)
    (hn : (r.state i).db.nodes.get? id = some n) (hkey : n.publicKey = some key)
    (hcreates : ∀ k d, i ≤ k → k < j → r.commit k = some d → ¬ d.op.creates id)
    (hn' : (r.state j).db.nodes.get? id = some n') : n'.publicKey = some key := by
  refine db_preserved (r := r) (i := i) (j := j)
    (P := fun db => ∀ n, db.nodes.get? id = some n → n.publicKey = some key) hij hj ?_ ?_ n' hn'
  · intro m hm
    cases hn.symm.trans hm
    exact hkey
  · intro k d hik hkj hd hfixed m hm
    rcases Step.origin (step_of_commit (by omega) hd) hm with hc | ⟨m₀, hm₀, hkeeps⟩
    · exact absurd hc (hcreates k d hik hkj hd)
    · have hkey₀ := hfixed m₀ hm₀
      rcases hkeeps.key with hnone | hsame
      · simp [hnone] at hkey₀
      · rw [hsame, hkey₀]

/-- A committed request that is sent again is answered with its session, while the registration
stands and neither the code nor the session has expired. -/
theorem answered_again (hij : i < j) (hj : j ≤ r.len) (ha : r.commit i = some a)
    (he : Enrolls (r.state i).db a req s)
    (hstands : ∀ k d, i < k → k < j → r.commit k = some d →
      ¬ Retires E (r.state k).db d req.challenge.nodeID) {e : Enrollment}
    (hrow : (r.state i).db.enrollments.get? req.challenge.nodeID = some e) {c : Clock}
    (hcode : unix (c.read 0) < e.expiresAt) (hsession : c.read 1 < s.expiresAt) :
    enrollCheck E c req (r.state j).db = .ok (some s) := by
  obtain ⟨expires, hb⟩ := Step.binds (step_of_commit (by omega) ha) he
  obtain ⟨e', hrow', -, -, rfl⟩ := hb.code
  cases hrow.symm.trans hrow'
  obtain ⟨e', n, he', hn, ⟨hhash, hconsumed, hdigest, data, hdata, hopen⟩, howner, hexpires,
    henabled⟩ : Answerable E (r.state j).db req s e.expiresAt :=
    db_preserved (P := fun db => Answerable E db req s e.expiresAt) hij hj hb.answerable
      fun k d hik hkj hd hans =>
        Step.answerable (step_of_commit (by omega) hd) hans (hstands k d hik hkj hd)
  have hreceipt := enrollmentReceipt_eq_some.mpr ⟨e', n, data, he', hn,
    ⟨howner, hhash, hexpires ▸ hcode, henabled⟩, hconsumed, hdigest, hdata, hopen, hsession⟩
  obtain ⟨call, b, v, hverified⟩ := verified (by omega) ha he
  obtain ⟨_, -, hcheck⟩ := hverified.checked
  -- The length of the code was checked when the request was first sent.
  have hlength : req.code.utf8ByteSize = 64 := by
    simp only [enrollCheck, Except_bind_eq_ok, require_eq_ok, exists_const] at hcheck
    exact hcheck.1
  simp only [enrollCheck, Except_bind_eq_ok, require_eq_ok, exists_const]
  exact ⟨hlength, some s, hreceipt, rfl⟩

end World.Run
end UniDERP
