import UniDERP.Control.Calls

namespace UniDERP

section Change

variable {E : Env} {c : Clock} {db mid db' : DB} {op : Op} {reply : Reply} {S : String → Prop}

def Backed (db : DB) : Prop :=
  ∀ id tn, db.tailnets.get? id = some tn → ∃ cr, db.credentials.get? id = some cr

def Op.addsTailnet (id : String) : Op → Bool
  | .addTailnet _ _ _ token _ _ => token.text = id
  | _ => false

/-- What a transaction leaves of a tailnet's credential and device list. -/
inductive ListChange (db : DB) (id : String) : Op → Option Credential → Option Snapshot → Prop
  | kept {op : Op} : ListChange db id op (db.credentials.get? id) (db.snapshots.get? id)
  | added {op : Op} {cr : Credential} {s : Snapshot} (adds : op.addsTailnet id) :
      ListChange db id op (some cr) (some s)
  | removed {actor : Actor} : ListChange db id (.deleteTailnet actor id) none none
  | began {cr : Credential} (credential : db.credentials.get? id = some cr)
      (status : cr.status ≠ .missing) :
      ListChange db id (.refreshBegin id) (some { cr with refreshSeq := cr.refreshSeq + 1 })
        (db.snapshots.get? id)
  | failed {ticket : RefreshTicket} {cr : Credential} (credential : db.credentials.get? id = some cr)
      (current : cr.revision = ticket.revision ∧ cr.refreshSeq = ticket.seq) :
      ListChange db id (.refreshCommit id ticket none)
        (some { cr with status := .unavailable, error := "identity source unavailable" })
        (db.snapshots.get? id)
  | refreshed {ticket : RefreshTicket} {keys : List IdentityKey} {cr : Credential} {s : Snapshot}
      (credential : db.credentials.get? id = some cr)
      (current : cr.revision = ticket.revision ∧ cr.refreshSeq = ticket.seq) (list : s.keys = keys) :
      ListChange db id (.refreshCommit id ticket (some keys))
        (some { cr with status := .valid, error := "" }) (some s)
  | replaced {actor : Actor} {revision : ℕ} {encrypted : Bytes} {keys : List IdentityKey}
      {cr : Credential} {s : Snapshot} (updatedAt : Int)
      (credential : db.credentials.get? id = some cr) (current : cr.revision = revision)
      (list : s.keys = keys) :
      ListChange db id (.replaceCommit actor id revision encrypted keys)
        (some { encrypted := encrypted, status := .valid, updatedAt := updatedAt
                revision := revision + 1 }) (some s)
  | deleted {actor : Actor} (updatedAt : Int) :
      ListChange db id (.deleteCredential actor id)
        ((db.credentials.get? id).map fun cr =>
          { cr with
            encrypted := [], status := .missing, error := "", revision := cr.revision + 1
            refreshSeq := 0, updatedAt := updatedAt })
        ((db.snapshots.get? id).map fun s => { s with keys := [], revision := s.revision + 1 })

theorem Effect.list_change (h : Effect E c db op reply mid S) (hb : Backed db) (id : String) :
    ListChange db id op (mid.credentials.get? id) (mid.snapshots.get? id) := by
  have hkept : mid.credentials.get? id = db.credentials.get? id →
      mid.snapshots.get? id = db.snapshots.get? id →
      ListChange db id op (mid.credentials.get? id) (mid.snapshots.get? id) := by
    intro hc hs
    rw [hc, hs]
    exact .kept
  -- Each case is about one tailnet: the rows of the others are as before.
  cases h
  case deleteTailnet k =>
    by_cases hk : id = k
    · subst hk
      simp only [DB.deleteTailnet, Table.get?_erase_self]
      exact .removed
    · exact hkept (Table.get?_erase_ne _ hk) (Table.get?_erase_ne _ hk)
  case addTailnet token _ _ _ _ _ _ _ _ =>
    by_cases hk : id = token.text
    · subst hk
      simp only [Table.get?_insert_self]
      exact .added (by simp [Op.addsTailnet])
    · exact hkept (Table.get?_insert_ne _ _ hk) (Table.get?_insert_ne _ _ hk)
  case replaceCommit k revision _ _ tn _ _ htn hcurrent =>
    by_cases hk : id = k
    · subst hk
      obtain ⟨cr, hcr⟩ := hb id tn htn
      simp only [Table.get?_insert_self]
      refine .replaced _ hcr ?_ rfl
      simpa [DB.credentialRevision, hcr] using hcurrent
    · exact hkept (Table.get?_insert_ne _ _ hk) (Table.get?_insert_ne _ _ hk)
  case deleteCredential k _ _ _ =>
    by_cases hk : id = k
    · subst hk
      simp only [Table.get?_modify, if_true]
      exact .deleted _
    · exact hkept (Table.get?_modify_ne _ _ hk) (Table.get?_modify_ne _ _ hk)
  case refreshBegin k cr tn hcr htn hstatus =>
    by_cases hk : id = k
    · subst hk
      simp only [Table.get?_insert_self]
      exact .began hcr hstatus
    · exact hkept (Table.get?_insert_ne _ _ hk) rfl
  case refreshFailed k _ cr _ hcr hcurrent =>
    by_cases hk : id = k
    · subst hk
      simp only [Table.get?_insert_self]
      exact .failed hcr hcurrent
    · exact hkept (Table.get?_insert_ne _ _ hk) rfl
  case refreshCommit k _ _ cr _ _ hcr hcurrent =>
    by_cases hk : id = k
    · subst hk
      simp only [Table.get?_insert_self]
      exact .refreshed hcr hcurrent rfl
    · exact hkept (Table.get?_insert_ne _ _ hk) (Table.get?_insert_ne _ _ hk)
  all_goals exact hkept rfl rfl

theorem Effect.backed (h : Effect E c db op reply mid S) (hb : Backed db) : Backed mid := by
  have hinsert : ∀ k cr, mid.credentials = db.credentials.insert k cr → mid.tailnets = db.tailnets →
      Backed mid := by
    intro k cr hc ht id tn htn
    obtain ⟨cr₀, hcr₀⟩ := hb id tn (ht ▸ htn)
    rw [hc, Table.get?_insert]
    split_ifs
    · exact ⟨cr, rfl⟩
    · exact ⟨cr₀, hcr₀⟩
  have hmodify : ∀ {k : String} {f : Tailnet → Tailnet} {id : String} {tn : Tailnet},
      (db.tailnets.modify k f).get? id = some tn → ∃ cr, db.credentials.get? id = some cr := by
    intro k f id tn htn
    obtain ⟨tn₀, htn₀, -⟩ := Table.get?_modify_eq_some.mp htn
    exact hb id tn₀ htn₀
  cases h
  case setTailnetEnabled => exact fun id tn htn => hmodify htn
  case transferTailnet => exact fun id tn htn => hmodify htn
  case deleteTailnet k =>
    intro id tn htn
    have hk : id ≠ k := by
      rintro rfl
      simp [DB.deleteTailnet] at htn
    obtain ⟨cr, hcr⟩ := hb id tn ((Table.get?_erase_ne _ hk).symm.trans htn)
    exact ⟨cr, (Table.get?_erase_ne _ hk).trans hcr⟩
  case addTailnet token _ _ _ _ _ _ _ _ =>
    intro id tn htn
    by_cases hk : id = token.text
    · subst hk
      exact ⟨_, Table.get?_insert_self _ _ _⟩
    · obtain ⟨cr, hcr⟩ := hb id tn ((Table.get?_insert_ne _ _ hk).symm.trans htn)
      exact ⟨cr, (Table.get?_insert_ne _ _ hk).trans hcr⟩
  case replaceCommit => exact hinsert _ _ rfl rfl
  case refreshBegin => exact hinsert _ _ rfl rfl
  case refreshFailed => exact hinsert _ _ rfl rfl
  case refreshCommit => exact hinsert _ _ rfl rfl
  case deleteCredential =>
    intro id tn htn
    obtain ⟨cr, hcr⟩ := hb id tn htn
    dsimp only
    rw [Table.get?_modify, hcr]
    split_ifs <;> simp
  all_goals exact hb

theorem Store.Reachable.backed (h : Store.Reachable E db) : Backed db := by
  refine Reachable.invariant h ?_ fun s a s' _ hs hstep => ?_
  · rintro s rfl id tn htn
    simp [DB.empty] at htn
  · obtain ⟨mid, S, i, he, hr⟩ := exec_does hstep
    rw [hr.frame]
    exact he.backed hs

theorem Step.list_change {a : Commit} (h : Step E db a db') (hb : Backed db) (id : String) :
    ListChange db id a.op (db'.credentials.get? id) (db'.snapshots.get? id) := by
  obtain ⟨mid, S, i, he, hr⟩ := exec_does h
  rw [hr.frame]
  exact he.list_change hb id

theorem refreshBegin_ticket {id : String} {t : RefreshTicket}
    (h : Step E db ⟨.refreshBegin id, c, .ticket t⟩ db') :
    ∃ cr, db'.credentials.get? id = some cr ∧ cr.encrypted = t.encrypted ∧
      cr.revision = t.revision ∧ cr.refreshSeq = t.seq ∧ t.seq ≠ 0 := by
  simp only [Step, exec, answer_eq_ok, refreshBegin, Except_bind_eq_ok, orElse_eq_ok,
    require_eq_ok, exists_const, Except_pure_eq_ok, Prod.mk.injEq] at h
  obtain ⟨_, ⟨cr, hcr, tn, htn, -, rfl, rfl⟩, heq⟩ := h
  obtain rfl := Reply.ticket.inj heq
  exact ⟨_, Table.get?_insert_self _ _ _, rfl, rfl, rfl, Nat.succ_ne_zero _⟩

/-- The revision of the credential, and the number of its last refresh. -/
def Credential.fence (cr : Credential) : ℕ ×ₗ ℕ := toLex (cr.revision, cr.refreshSeq)

/-- A later row of the same tailnet: the fence has risen, or it is the same credential. -/
def Credential.Follows (cr cr' : Credential) : Prop :=
  cr.fence < cr'.fence ∨ cr.fence = cr'.fence ∧ cr.encrypted = cr'.encrypted

theorem Credential.Follows.refl (cr : Credential) : cr.Follows cr := .inr ⟨rfl, rfl⟩

theorem Credential.Follows.trans {a b d : Credential} (h : a.Follows b) (h' : b.Follows d) :
    a.Follows d := by
  rcases h with h | ⟨hf, he⟩ <;> rcases h' with h' | ⟨hf', he'⟩
  · exact .inl (h.trans h')
  · exact .inl (hf' ▸ h)
  · exact .inl (hf ▸ h')
  · exact .inr ⟨hf.trans hf', he.trans he'⟩

theorem Credential.Follows.le {cr cr' : Credential} (h : cr.Follows cr') : cr.fence ≤ cr'.fence :=
  h.elim le_of_lt fun h => h.1.le

theorem Credential.fence_lt_of_revision {cr cr' : Credential} (h : cr.revision < cr'.revision) :
    cr.fence < cr'.fence := Prod.Lex.toLex_lt_toLex.mpr (.inl h)

theorem Credential.revision_le_of_fence {cr cr' : Credential} (h : cr.fence ≤ cr'.fence) :
    cr.revision ≤ cr'.revision := by
  rcases Prod.Lex.toLex_le_toLex.mp h with hlt | ⟨heq, -⟩
  · exact hlt.le
  · exact heq.le

/-- Without a new tailnet, the credential after a transaction follows the one before. -/
theorem ListChange.follows {id : String} {cr' : Credential} {o : Option Credential}
    {s : Option Snapshot} (h : ListChange db id op o s) (ho : o = some cr')
    (hnew : op.addsTailnet id = false) :
    ∃ cr, db.credentials.get? id = some cr ∧ cr.Follows cr' := by
  cases h with
  | kept => exact ⟨cr', ho, .refl cr'⟩
  | added hadds => simp [hnew] at hadds
  | removed => cases ho
  | began hcr =>
    obtain rfl := Option.some.inj ho
    exact ⟨_, hcr, .inl (Prod.Lex.toLex_lt_toLex.mpr (.inr ⟨rfl, Nat.lt_succ_self _⟩))⟩
  | failed hcr =>
    obtain rfl := Option.some.inj ho
    exact ⟨_, hcr, .inr ⟨rfl, rfl⟩⟩
  | refreshed hcr =>
    obtain rfl := Option.some.inj ho
    exact ⟨_, hcr, .inr ⟨rfl, rfl⟩⟩
  | replaced _ hcr hcurrent =>
    obtain rfl := Option.some.inj ho
    exact ⟨_, hcr, .inl (Credential.fence_lt_of_revision (by simp [hcurrent]))⟩
  | deleted =>
    obtain ⟨cr, hcr, rfl⟩ := Option.map_eq_some_iff.mp ho
    exact ⟨cr, hcr, .inl (Credential.fence_lt_of_revision (Nat.lt_succ_self _))⟩

theorem deleteCredential_empties {actor : Actor} {id : String}
    (h : Step E db ⟨.deleteCredential actor id, c, reply⟩ db') (hb : Backed db) :
    ∃ cr cr', db.credentials.get? id = some cr ∧ db'.credentials.get? id = some cr' ∧
      cr'.status = .missing ∧ cr'.refreshSeq = 0 ∧ cr'.revision = cr.revision + 1 ∧
      ∀ s, db'.snapshots.get? id = some s → s.keys = [] := by
  obtain ⟨mid, S, i, he, hr⟩ := exec_does h
  rw [hr.frame]
  cases he with
  | idle hrepeat => cases hrepeat
  | sessions hlogin => cases hlogin
  | ports hports => cases hports
  | deleteCredential events htn =>
    obtain ⟨cr, hcr⟩ := hb id _ htn
    refine ⟨cr, { encrypted := [], status := .missing, updatedAt := unix (c.read 0)
                  revision := cr.revision + 1 }, hcr, by simp [hcr], rfl, rfl, rfl, fun s hs => ?_⟩
    obtain ⟨s₀, -, rfl⟩ := Table.get?_modify_eq_some.mp hs
    simp

end Change

namespace World.Run

variable {E : Env} (r : World.Run E)

/-- Step `k` adds a tailnet under this id. -/
def Adds (k : ℕ) (id : String) : Prop :=
  k < r.len ∧ ∃ a, r.commit k = some a ∧ a.op.addsTailnet id

def DrawnOnce (id : String) : Prop := ∀ j k, r.Adds j id → r.Adds k id → j = k

/-- A refresh began at step `b` with this ticket and ends at step `i`. -/
structure Refreshes (id : String) (ticket : RefreshTicket) (fetched : Option (List IdentityKey))
    (b i : ℕ) : Prop where
  order : b < i
  read : ∃ c, r.commit b = some ⟨.refreshBegin id, c, .ticket ticket⟩
  call : ∃ call c c', (r.label b).1 = .refreshBegin call c id ∧
    (r.label i).1 = .refreshFinish call c' fetched ∧
    ∀ k, b < k → k ≤ i → (r.state k).flights.get? call = some (.refresh id ticket)

/-- A replacement read this revision at step `b` and ends at step `i`. -/
structure Replaces (id : String) (revision : ℕ) (encrypted : Bytes) (keys : List IdentityKey)
    (b i : ℕ) : Prop where
  order : b < i
  read : (r.state b).db.credentialRevision id = revision
  call : ∃ call actor tn c, (r.label b).1 = .replaceRevision call ∧
    (r.label i).1 = .replaceFinish call c encrypted keys ∧
    ∀ k, b < k → k ≤ i →
      (r.state k).flights.get? call = some (.replace actor id tn (some revision))

variable {r} {id : String}

theorem Adds.label {k : ℕ} (h : r.Adds k id) :
    ∃ c op, (r.label k).1 = .commit c op ∧ op.addsTailnet id := by
  obtain ⟨hk, a, ha, hadds⟩ := h
  have harrives := arrives hk ha
  generalize hact : (r.label k).1 = act at harrives
  generalize a.op = op at harrives hadds
  cases harrives with
  | whole => exact ⟨_, op, rfl, hadds⟩
  | enroll => cases hadds
  | renew => cases hadds
  | refreshBegin => cases hadds
  | refresh => cases hadds
  | replace => cases hadds

theorem refreshes {i : ℕ} (hi : i < r.len) {a : Commit} (ha : r.commit i = some a)
    {ticket : RefreshTicket} {fetched : Option (List IdentityKey)}
    (hop : a.op = .refreshCommit id ticket fetched) : ∃ b, r.Refreshes id ticket fetched b i := by
  have harrives := arrives hi ha
  rw [hop] at harrives
  generalize hact : (r.label i).1 = act at harrives
  cases harrives with
  | whole hwhole => cases hwhole
  | @refresh call _ _ _ _ hflight =>
    obtain ⟨b, hb, hdeparts, hsince⟩ := departed hi.le hflight
    generalize hreply : (r.label b).2 = reply at hdeparts
    generalize hbegin : (r.label b).1 = begin_ at hdeparts
    cases hdeparts with
    | @refresh _ c' =>
      refine ⟨b, hb, ⟨c', ?_⟩, call, c', a.clock, hbegin, hact, hsince⟩
      simp [commit, World.committed, World.op, hreply, hbegin]

theorem replaces {i : ℕ} (hi : i < r.len) {a : Commit} (ha : r.commit i = some a) {actor : Actor}
    {revision : ℕ} {encrypted : Bytes} {keys : List IdentityKey}
    (hop : a.op = .replaceCommit actor id revision encrypted keys) :
    ∃ b, r.Replaces id revision encrypted keys b i := by
  have harrives := arrives hi ha
  rw [hop] at harrives
  generalize hact : (r.label i).1 = act at harrives
  cases harrives with
  | whole hwhole => cases hwhole
  | @replace call _ _ _ _ _ tn _ hflight =>
    obtain ⟨b, hb, hdeparts, hsince⟩ := departed hi.le hflight
    generalize hbegin : (r.label b).1 = begin_ at hdeparts
    generalize hreply : (r.label b).2 = reply at hdeparts
    cases hdeparts with
    | replaceRevision => exact ⟨b, hb, rfl, call, actor, tn, a.clock, hbegin, hact, hsince⟩

theorem list_change {i : ℕ} (hi : i < r.len) {a : Commit} (ha : r.commit i = some a) (id : String) :
    ListChange (r.state i).db id a.op ((r.state (i + 1)).db.credentials.get? id)
      ((r.state (i + 1)).db.snapshots.get? id) :=
  (step_of_commit hi ha).list_change (store_reachable hi.le).backed id

theorem added_before {i : ℕ} (hi : i ≤ r.len) {cr : Credential}
    (hcr : (r.state i).db.credentials.get? id = some cr) : ∃ k < i, r.Adds k id := by
  have h0 : ¬ (r.state 0).db.credentials.get? id ≠ none := by
    rw [r.start]
    simp [DB.empty]
  obtain ⟨k, a, -, hki, ha, hnot, hall⟩ := db_established
    (P := fun db => db.credentials.get? id ≠ none) (Nat.zero_le i) hi h0 (by simp [hcr])
  refine ⟨k, hki, by omega, a, ha, ?_⟩
  by_contra hadds
  obtain ⟨cr', hcr'⟩ := Option.ne_none_iff_exists'.mp (hall (k + 1) (by omega) hki)
  obtain ⟨cr₀, hcr₀, -⟩ := (list_change (by omega) ha id).follows hcr' (by simpa using hadds)
  exact hnot (by simp [hcr₀])

theorem follows (hid : r.DrawnOnce id) {i j : ℕ} (hij : i ≤ j) (hj : j ≤ r.len)
    {cr cr' : Credential} (hcr : (r.state i).db.credentials.get? id = some cr)
    (hcr' : (r.state j).db.credentials.get? id = some cr') : cr.Follows cr' := by
  obtain ⟨k₀, hk₀, hadded⟩ := added_before (hij.trans hj) hcr
  refine db_preserved (P := fun db => ∀ cr', db.credentials.get? id = some cr' → cr.Follows cr')
    hij hj (fun cr' hcr' => ?_) (fun k a hik hkj ha ih cr' hcr' => ?_) cr' hcr'
  · cases hcr.symm.trans hcr'
    exact .refl cr
  · have hnew : a.op.addsTailnet id = false := by
      by_contra hadds
      have hk : k₀ = k := hid k₀ k hadded ⟨by omega, a, ha, by simpa using hadds⟩
      omega
    obtain ⟨cr₁, hcr₁, hf⟩ := (list_change (by omega) ha id).follows hcr' hnew
    exact (ih cr₁ hcr₁).trans hf

variable (r) in
/-- Step `i` stores the list of the refresh that began at step `b`: its credential is the stored
one, and no refresh of the tailnet began after it. -/
structure Refreshed (id : String) (keys : List IdentityKey) (b i : ℕ) : Prop where
  committed : i < r.len
  refresh : ∃ ticket cr, r.Refreshes id ticket (some keys) b i ∧
    (r.state i).db.credentials.get? id = some cr ∧ cr.revision = ticket.revision ∧
    cr.refreshSeq = ticket.seq ∧ cr.encrypted = ticket.encrypted
  last : ∀ k a, b < k → k < i → r.commit k = some a → a.op ≠ .refreshBegin id
  stored : ∃ s, (r.state (i + 1)).db.snapshots.get? id = some s ∧ s.keys = keys

variable (r) in
/-- Step `i` stores the list of the replacement that read the credential at step `b`, and the new
credential as the next revision of the one it read. -/
structure Replaced (id : String) (keys : List IdentityKey) (b i : ℕ) : Prop where
  committed : i < r.len
  replace : ∃ encrypted cr cr', r.Replaces id cr.revision encrypted keys b i ∧
    (r.state i).db.credentials.get? id = some cr ∧
    (r.state (i + 1)).db.credentials.get? id = some cr' ∧ cr'.encrypted = encrypted ∧
    cr'.revision = cr.revision + 1
  stored : ∃ s, (r.state (i + 1)).db.snapshots.get? id = some s ∧ s.keys = keys

theorem Refreshes.credential {ticket : RefreshTicket} {fetched : Option (List IdentityKey)}
    {b i : ℕ} (h : r.Refreshes id ticket fetched b i) (hi : i ≤ r.len) :
    ∃ cr, (r.state (b + 1)).db.credentials.get? id = some cr ∧ cr.encrypted = ticket.encrypted ∧
      cr.fence = toLex (ticket.revision, ticket.seq) ∧ ticket.seq ≠ 0 := by
  obtain ⟨c, hread⟩ := h.read
  have hb : b < r.len := h.order.trans_le hi
  obtain ⟨cr, hcr, hencrypted, hrevision, hseq, hne⟩ :=
    refreshBegin_ticket (step_of_commit hb hread)
  exact ⟨cr, hcr, hencrypted, by rw [Credential.fence, hrevision, hseq], hne⟩

theorem fence_lt_of_refreshBegin {k : ℕ} (hk : k < r.len) {a : Commit} (ha : r.commit k = some a)
    (hop : a.op = .refreshBegin id) :
    ∃ cr cr', (r.state k).db.credentials.get? id = some cr ∧
      (r.state (k + 1)).db.credentials.get? id = some cr' ∧ cr.fence < cr'.fence := by
  have hstep := step_of_commit hk ha
  simp only [UniDERP.Step, hop, exec, answer_eq_ok, refreshBegin, Except_bind_eq_ok, orElse_eq_ok,
    require_eq_ok, exists_const, Except_pure_eq_ok, Prod.mk.injEq] at hstep
  obtain ⟨_, ⟨cr, hcr, tn, -, -, hdb, -⟩, -⟩ := hstep
  rw [← hdb]
  refine ⟨cr, _, hcr, Table.get?_insert_self _ _ _, ?_⟩
  exact Prod.Lex.toLex_lt_toLex.mpr (.inr ⟨rfl, Nat.lt_succ_self _⟩)

theorem Refreshes.refreshed (hid : r.DrawnOnce id) {ticket : RefreshTicket}
    {keys : List IdentityKey} {b i : ℕ} (h : r.Refreshes id ticket (some keys) b i)
    (hi : i < r.len) {cr : Credential} (hcr : (r.state i).db.credentials.get? id = some cr)
    (hcurrent : cr.revision = ticket.revision ∧ cr.refreshSeq = ticket.seq)
    (hstored : ∃ s, (r.state (i + 1)).db.snapshots.get? id = some s ∧ s.keys = keys) :
    r.Refreshed id keys b i := by
  obtain ⟨cr₀, hcr₀, hencrypted, hfence, -⟩ := h.credential hi.le
  have hsame : cr.fence = cr₀.fence := by rw [hfence, Credential.fence, hcurrent.1, hcurrent.2]
  have horder := h.order
  refine ⟨hi, ⟨ticket, cr, h, hcr, hcurrent.1, hcurrent.2, ?_⟩, fun k a hbk hki ha hop => ?_,
    hstored⟩
  · rcases follows hid horder hi.le hcr₀ hcr with hlt | ⟨-, heq⟩
    · exact absurd hsame.symm hlt.ne
    · rw [← heq, hencrypted]
  · obtain ⟨cr₁, cr₂, hcr₁, hcr₂, hlt⟩ := fence_lt_of_refreshBegin (by omega) ha hop
    have hbefore := (follows hid hbk (by omega) hcr₀ hcr₁).le
    have hafter := (follows hid hki hi.le hcr₂ hcr).le
    exact absurd (hbefore.trans_lt (hlt.trans_le hafter)) (by simp [hsame])

/-- Whatever changes a stored list. -/
theorem list_written (hid : r.DrawnOnce id) {i : ℕ} (hi : i < r.len)
    (hne : (r.state (i + 1)).db.snapshots.get? id ≠ (r.state i).db.snapshots.get? id) :
    (∃ b keys, r.Refreshed id keys b i ∨ r.Replaced id keys b i) ∨ r.Adds i id ∨
      ∃ a actor, r.commit i = some a ∧
        (a.op = .deleteCredential actor id ∨ a.op = .deleteTailnet actor id) ∧
        ∀ s, (r.state (i + 1)).db.snapshots.get? id = some s → s.keys = [] := by
  cases ha : r.commit i with
  | none => exact absurd (by rw [db_of_not_commit hi ha]) hne
  | some a =>
    have hchange := list_change hi ha id
    generalize hcr' : (r.state (i + 1)).db.credentials.get? id = cr' at hchange
    generalize hs' : (r.state (i + 1)).db.snapshots.get? id = s' at hchange hne
    generalize hop : a.op = op at hchange
    -- Keys come from a refresh, a replacement or a new tailnet; what else changes the row empties
    -- it.
    cases hchange with
    | kept => exact absurd rfl hne
    | added hadds => exact .inr (.inl ⟨hi, a, ha, hop ▸ hadds⟩)
    | removed => exact .inr (.inr ⟨a, _, rfl, .inr hop, by simp⟩)
    | began => exact absurd rfl hne
    | failed => exact absurd rfl hne
    | refreshed hcr hcurrent hlist =>
      obtain ⟨b, hb⟩ := refreshes hi ha hop
      exact .inl ⟨b, _, .inl (hb.refreshed hid hi hcr hcurrent ⟨_, hs', hlist⟩)⟩
    | replaced _ hcr hcurrent hlist =>
      obtain ⟨b, hb⟩ := replaces hi ha hop
      subst hcurrent
      exact .inl ⟨b, _, .inr ⟨hi, ⟨_, _, _, hb, hcr, hcr', rfl, rfl⟩, _, hs', hlist⟩⟩
    | deleted =>
      refine .inr (.inr ⟨a, _, rfl, .inl hop, fun s hs => ?_⟩)
      obtain ⟨s₀, -, rfl⟩ := Option.map_eq_some_iff.mp hs
      rfl

theorem Replaces.revision_le (hid : r.DrawnOnce id) {revision : ℕ} {encrypted : Bytes}
    {keys : List IdentityKey} {b i j : ℕ} (h : r.Replaces id revision encrypted keys b j) (hbi : b ≤ i)
    (hi : i ≤ r.len) {cr : Credential} (hcr : (r.state i).db.credentials.get? id = some cr) :
    revision ≤ cr.revision := by
  rw [← h.read, DB.credentialRevision]
  cases hcr₀ : (r.state b).db.credentials.get? id with
  | none => exact Nat.zero_le _
  | some cr₀ => exact Credential.revision_le_of_fence (follows hid hbi hi hcr₀ hcr).le

/-- After a deletion the list is empty until a replacement that read the credential since. -/
theorem empty_since_deletion (hid : r.DrawnOnce id) {i j : ℕ} (hij : i < j) (hj : j ≤ r.len)
    {a : Commit} (ha : r.commit i = some a) {actor : Actor} (hop : a.op = .deleteCredential actor id)
    (hnone : ∀ b k keys, i < b → k < j → ¬ r.Replaced id keys b k) :
    ∀ s, (r.state j).db.snapshots.get? id = some s → s.keys = [] := by
  obtain ⟨op, c, reply⟩ := a
  subst hop
  have hi : i < r.len := by omega
  obtain ⟨cr, cr', hcr, hcr', hstatus, hseq, hrevision, hempty⟩ :=
    deleteCredential_empties (step_of_commit hi ha) (store_reachable hi.le).backed
  obtain ⟨k₀, hk₀, hadded⟩ := added_before hi.le hcr
  have hall := db_preserved (r := r) (i := i + 1) (P := fun db =>
      (∀ cr₁, db.credentials.get? id = some cr₁ →
        cr₁.status = .missing ∧ cr₁.refreshSeq = 0 ∧ cr.revision < cr₁.revision) ∧
      ∀ s, db.snapshots.get? id = some s → s.keys = []) hij hj ?_ fun k a hik hkj ha ih => ?_
  · exact hall.2
  · refine ⟨fun cr₁ hcr₁ => ?_, hempty⟩
    cases hcr'.symm.trans hcr₁
    exact ⟨hstatus, hseq, by omega⟩
  have hk : k < r.len := by omega
  obtain ⟨ihcr, ihlist⟩ := ih
  have hchange := list_change hk ha id
  -- A refresh has a number above zero, and none can begin.
  have hrefresh : ∀ {ticket : RefreshTicket} {fetched : Option (List IdentityKey)} {cr₁ : Credential},
      a.op = .refreshCommit id ticket fetched → (r.state k).db.credentials.get? id = some cr₁ →
      cr₁.refreshSeq ≠ ticket.seq := by
    intro ticket fetched cr₁ hop hcr₁ heq
    obtain ⟨b, hb⟩ := refreshes hk ha hop
    obtain ⟨_, -, -, -, hne⟩ := hb.credential hk.le
    exact hne (heq ▸ (ihcr cr₁ hcr₁).2.1)
  generalize ho : (r.state (k + 1)).db.credentials.get? id = o at hchange ⊢
  generalize hs' : (r.state (k + 1)).db.snapshots.get? id = s' at hchange ⊢
  generalize hop : a.op = op at hchange hrefresh
  cases hchange with
  | kept => exact ⟨ihcr, ihlist⟩
  | added hadds =>
    have := hid k₀ k hadded ⟨hk, a, ha, hop ▸ hadds⟩
    omega
  | removed => exact ⟨by simp, by simp⟩
  | began hcr₁ hmissing => exact absurd (ihcr _ hcr₁).1 hmissing
  | failed hcr₁ hcurrent => exact absurd hcurrent.2 (hrefresh rfl hcr₁)
  | refreshed hcr₁ hcurrent => exact absurd hcurrent.2 (hrefresh rfl hcr₁)
  | replaced _ hcr₁ hcurrent hlist =>
    subst hcurrent
    obtain ⟨b, hb⟩ := replaces hk ha hop
    by_cases hib : i < b
    · exact absurd ⟨hk, ⟨_, _, _, hb, hcr₁, ho, rfl, rfl⟩, _, hs', hlist⟩ (hnone b k _ hib hkj)
    · exact absurd (hb.revision_le hid (Nat.le_of_not_lt hib) hi.le hcr)
        (Nat.not_le_of_lt (ihcr _ hcr₁).2.2)
  | deleted =>
    refine ⟨fun cr₂ hcr₂ => ?_, fun s hs => ?_⟩
    · obtain ⟨cr₁, hcr₁, rfl⟩ := Option.map_eq_some_iff.mp hcr₂
      exact ⟨rfl, rfl, Nat.lt_succ_of_lt (ihcr cr₁ hcr₁).2.2⟩
    · obtain ⟨s₀, -, rfl⟩ := Option.map_eq_some_iff.mp hs
      rfl

theorem Refreshes.ends_once {ticket ticket' : RefreshTicket}
    {fetched fetched' : Option (List IdentityKey)} {b i j : ℕ}
    (h : r.Refreshes id ticket fetched b i) (h' : r.Refreshes id ticket' fetched' b j)
    (hi : i < r.len) (hij : i < j) : False := by
  obtain ⟨call, c, c₁, hbegin, hfinish, -⟩ := h.call
  obtain ⟨call', c', c₁', hbegin', -, hsince⟩ := h'.call
  obtain ⟨rfl, rfl⟩ : call = call' ∧ c = c' := by
    rw [hbegin] at hbegin'
    cases hbegin'
    exact ⟨rfl, rfl⟩
  have hstep := r.next i hi
  rw [World.Step, hfinish, World.step] at hstep
  obtain ⟨a, -, -, hflights, -⟩ := World.step_transact hstep
  have hflight := hsince (i + 1) (h.order.trans (Nat.lt_succ_self i)) hij
  rw [hflights, Table.get?_erase_self] at hflight
  cases hflight

/-- Two steps that store fetched lists in turn: the later call read the credential after the
earlier step, unless a replacement was away while a refresh published. -/
theorem published_after (hid : r.DrawnOnce id) {keys keys' : List IdentityKey} {b i b' j : ℕ}
    (h : r.Refreshed id keys b i ∨ r.Replaced id keys b i)
    (h' : r.Refreshed id keys' b' j ∨ r.Replaced id keys' b' j) (hij : i < j) :
    i < b' ∨ r.Refreshed id keys b i ∧ r.Replaced id keys' b' j ∧ b' < i := by
  by_contra hcon
  rw [not_or, Nat.not_lt] at hcon
  obtain ⟨hle, hnot⟩ := hcon
  rcases h' with h' | h' <;> rcases h with h | h
  · -- The one that began first would have seen the other begin.
    obtain ⟨ticket, -, hread, -⟩ := h.refresh
    obtain ⟨ticket', -, hread', -⟩ := h'.refresh
    have hne : b' ≠ i := by
      rintro rfl
      obtain ⟨_, _, _, -, hfinish, -⟩ := hread.call
      obtain ⟨_, _, _, hbegin, -⟩ := hread'.call
      cases hbegin.symm.trans hfinish
    obtain ⟨c, hc⟩ := hread.read
    obtain ⟨c', hc'⟩ := hread'.read
    rcases Nat.lt_trichotomy b b' with hlt | rfl | hgt
    · exact h.last b' _ hlt (by omega) hc' rfl
    · exact hread.ends_once hread' h.committed hij
    · exact h'.last b _ hgt (hread.order.trans hij) hc rfl
  -- A replacement raises the revision, so a refresh that began before it would not commit after it.
  · obtain ⟨encrypted, cr, cr₁, hread, hcr, hcr₁, -, hnext⟩ := h.replace
    obtain ⟨ticket, cr', hread', hcr', hrevision, hseq, -⟩ := h'.refresh
    have hne : b' ≠ i := by
      rintro rfl
      obtain ⟨_, _, _, _, -, hfinish, -⟩ := hread.call
      obtain ⟨_, _, _, hbegin, -⟩ := hread'.call
      cases hbegin.symm.trans hfinish
    obtain ⟨cr₀, hcr₀, -, hfence, -⟩ := hread'.credential h'.committed.le
    have hsame : cr'.fence = cr₀.fence := by rw [hfence, Credential.fence, hrevision, hseq]
    have hbefore := (follows hid (by omega) h.committed.le hcr₀ hcr).le
    have hafter := (follows hid hij h'.committed.le hcr₁ hcr').le
    have hlt : cr.fence < cr₁.fence := Credential.fence_lt_of_revision (by omega)
    exact absurd (hbefore.trans_lt (hlt.trans_le hafter)) (by simp [hsame])
  · obtain ⟨ticket, -, hread, -⟩ := h.refresh
    obtain ⟨encrypted, cr, cr₁, hread', -⟩ := h'.replace
    have hne : b' ≠ i := by
      rintro rfl
      obtain ⟨_, _, _, -, hfinish, -⟩ := hread.call
      obtain ⟨_, _, _, _, hbegin, -⟩ := hread'.call
      cases hbegin.symm.trans hfinish
    exact hnot ⟨h, h', by omega⟩
  · obtain ⟨encrypted, cr, cr₁, hread, hcr, hcr₁, -, hnext⟩ := h.replace
    obtain ⟨encrypted', cr', -, hread', hcr', -⟩ := h'.replace
    have hbefore := hread'.revision_le hid hle h.committed.le hcr
    have hafter := Credential.revision_le_of_fence (follows hid hij h'.committed.le hcr₁ hcr').le
    omega

end World.Run

namespace First

def kept : IdentityKey := ⟨homeKey, .utc (5000 * second)⟩
def dropped : IdentityKey := ⟨awayKey, .utc (5000 * second)⟩

/-- A replacement reads the credential; a refresh begins and publishes; the replacement commits. -/
def racing : List Act := [
  .commit clock (.initializeAdmin "admin" "a long password" owner "hash"),
  .commit clock (.addTailnet admin "home" "Thome" tailnet [] [kept, dropped]),
  .replaceBegin 0 admin tailnet.text,
  .replaceRevision 0,
  .refreshBegin 1 clock tailnet.text,
  .refreshFinish 1 clock (some [kept]),
  .replaceFinish 0 clock [1] [kept, dropped]]

def listAfter (E : Env) (i : ℕ) : Option (List IdentityKey) :=
  (Run.play (World.after E) (racing.take i) {}).bind fun w =>
    (w.db.snapshots.get? tailnet.text).map (·.keys)

theorem raced : ∃ r : World.Run Env.plain, r.len = 7 ∧
    (∀ i act, racing[i]? = some act → (r.label i).1 = act) ∧ r.DrawnOnce tailnet.text ∧
    ∀ i ≤ 7, listAfter Env.plain i =
      ((r.state i).db.snapshots.get? tailnet.text).map (·.keys) := by
  have hplay : (Run.play (World.after Env.plain) racing {}).isSome := by decide +kernel
  obtain ⟨w, hw⟩ := Option.isSome_iff_exists.mp hplay
  obtain ⟨r, hlen, hstate, hlabel⟩ := World.Run.of_acts hw
  have hadds : ∀ k, r.Adds k tailnet.text → k = 1 := by
    intro k hk
    have hlt : k < racing.length := hlen ▸ hk.1
    obtain ⟨c, op, hact, hadds⟩ := hk.label
    rw [hlabel k _ (List.getElem?_eq_getElem hlt)] at hact
    change k < 7 at hlt
    interval_cases k
    · cases hact
      cases hadds
    · rfl
    all_goals cases hact
  refine ⟨r, hlen, hlabel, fun j k hj hk => (hadds j hj).trans (hadds k hk).symm, fun i hi => ?_⟩
  rw [listAfter, hstate i hi]
  rfl

/-- Both calls of the race store their lists. -/
theorem raced_published : ∃ r : World.Run Env.plain, r.DrawnOnce tailnet.text ∧
    ∃ b b', r.Refreshed tailnet.text [kept] b 5 ∧ r.Replaced tailnet.text [kept, dropped] b' 6 ∧
      ∀ b keys, r.Refreshed tailnet.text keys b 6 ∨ r.Replaced tailnet.text keys b 6 → b = 3 := by
  obtain ⟨r, hlen, hlabel, hid, hlist⟩ := raced
  have hrefresh : (r.label 5).1 = .refreshFinish 1 clock (some [kept]) := hlabel 5 _ rfl
  have hreplace : (r.label 6).1 = .replaceFinish 0 clock [1] [kept, dropped] := hlabel 6 _ rfl
  -- Where the list changes without a commit of its own, one of the two calls has written it.
  have hchanged : ∀ i < 7, listAfter Env.plain (i + 1) ≠ listAfter Env.plain i →
      (∃ c op, (r.label i).1 = .commit c op) ∨ ∃ b keys,
        r.Refreshed tailnet.text keys b i ∨ r.Replaced tailnet.text keys b i := by
    intro i hi hne
    rw [hlist (i + 1) (by omega), hlist i (by omega)] at hne
    have hi' : i < r.len := by omega
    rcases World.Run.list_written hid hi' fun heq => hne (by rw [heq]) with
      h | h | ⟨a, actor, ha, h, -⟩
    · exact .inr h
    · obtain ⟨c, op, h, -⟩ := h.label
      exact .inl ⟨c, op, h⟩
    · have harrives := World.Run.arrives hi' ha
      generalize (r.label i).1 = act at harrives
      rcases h with h | h <;> rw [h] at harrives <;> cases harrives <;> exact .inl ⟨_, _, rfl⟩
  have hread : ∀ b keys, r.Refreshed tailnet.text keys b 6 ∨ r.Replaced tailnet.text keys b 6 →
      b = 3 ∧ r.Replaced tailnet.text [kept, dropped] b 6 := by
    rintro b keys (h | h)
    · obtain ⟨_, _, hcall, -⟩ := h.refresh
      obtain ⟨_, _, _, -, hfinish, -⟩ := hcall.call
      cases hreplace.symm.trans hfinish
    · obtain ⟨_, _, _, hcall, -⟩ := h.replace
      obtain ⟨_, _, _, _, hbegin, hfinish, -⟩ := hcall.call
      cases hreplace.symm.trans hfinish
      refine ⟨?_, h⟩
      have hb := hcall.order
      rw [hlabel b _ (List.getElem?_eq_getElem (hb.trans (by decide)))] at hbegin
      interval_cases b <;> first | rfl | cases hbegin
  have hfirst : ∃ b, r.Refreshed tailnet.text [kept] b 5 := by
    rcases hchanged 5 (by omega) (by decide +kernel) with ⟨_, _, h⟩ | ⟨b, keys, h | h⟩
    · cases hrefresh.symm.trans h
    · obtain ⟨_, _, hcall, -⟩ := h.refresh
      obtain ⟨_, _, _, -, hfinish, -⟩ := hcall.call
      cases hrefresh.symm.trans hfinish
      exact ⟨b, h⟩
    · obtain ⟨_, _, _, hcall, -⟩ := h.replace
      obtain ⟨_, _, _, _, -, hfinish, -⟩ := hcall.call
      cases hrefresh.symm.trans hfinish
  obtain ⟨b, hrefreshed⟩ := hfirst
  rcases hchanged 6 (by omega) (by decide +kernel) with ⟨_, _, h⟩ | ⟨b', keys, h⟩
  · cases hreplace.symm.trans h
  · exact ⟨r, hid, b, b', hrefreshed, (hread b' keys h).2, fun b keys h => (hread b keys h).1⟩

end First

namespace World.Run

variable {E : Env} {r : World.Run E} {id : String}

/-- In every run a tailnet's list is only written by a fetch with the credential that is current at
the commit, by the refresh that began last, or emptied; and once its credential was deleted it
stays empty until a replacement commits that read the credential afterwards. -/
theorem credentials_fenced (hid : r.DrawnOnce id) :
    (∀ i < r.len, (r.state (i + 1)).db.snapshots.get? id ≠ (r.state i).db.snapshots.get? id →
      (∃ b keys, r.Refreshed id keys b i ∨ r.Replaced id keys b i) ∨ r.Adds i id ∨
        ∃ a actor, r.commit i = some a ∧
          (a.op = .deleteCredential actor id ∨ a.op = .deleteTailnet actor id) ∧
          ∀ s, (r.state (i + 1)).db.snapshots.get? id = some s → s.keys = []) ∧
    ∀ i j a actor s, i < j → j ≤ r.len → r.commit i = some a → a.op = .deleteCredential actor id →
      (r.state j).db.snapshots.get? id = some s → s.keys ≠ [] →
      ∃ b k keys, i < b ∧ k < j ∧ r.Replaced id keys b k := by
  refine ⟨fun i hi hne => list_written hid hi hne, fun i j a actor s hij hj ha hop hs hkeys => ?_⟩
  by_contra hnone
  push Not at hnone
  exact hkeys (empty_since_deletion hid hij hj ha hop hnone s hs)

/-- A refresh stored its list while the first tailnet's credential was replaced. -/
theorem first_list_refreshed : ∃ r : World.Run Env.plain, r.DrawnOnce First.tailnet.text ∧
    ((∃ b keys, r.Refreshed First.tailnet.text keys b 5 ∨ r.Replaced First.tailnet.text keys b 5) ∨
      r.Adds 5 First.tailnet.text ∨ ∃ a actor, r.commit 5 = some a ∧
        (a.op = .deleteCredential actor First.tailnet.text ∨
          a.op = .deleteTailnet actor First.tailnet.text) ∧
        ∀ s, (r.state 6).db.snapshots.get? First.tailnet.text = some s → s.keys = []) := by
  obtain ⟨r, hlen, -, hid, hlist⟩ := First.raced
  refine ⟨r, hid, (credentials_fenced hid).1 5 (by omega) fun heq => ?_⟩
  have hsame : First.listAfter Env.plain 6 = First.listAfter Env.plain 5 := by
    rw [hlist 6 (by omega), hlist 5 (by omega), heq]
  exact absurd hsame (by decide +kernel)

variable (r) in
/-- Step `k` happens at time `k`; the fetch whose list step `i` stores began at `start i`, after the
call had read the credential. -/
def FetchedAt (id : String) (start : ℕ → ℚ) : Prop :=
  ∀ keys b i, r.Refreshed id keys b i ∨ r.Replaced id keys b i → b < start i ∧ start i < i

variable (r) in
def NewestWins (id : String) (start : ℕ → ℚ) : Prop :=
  ∀ keys b i keys' b' j, r.Refreshed id keys b i ∨ r.Replaced id keys b i →
    r.Refreshed id keys' b' j ∨ r.Replaced id keys' b' j → i < j → start i ≤ start j

variable (r) in
/-- No replacement that was away while a refresh published had fetched before it. -/
def NoneOvertaken (id : String) (start : ℕ → ℚ) : Prop :=
  ∀ keys b i keys' b' j, r.Refreshed id keys b i → r.Replaced id keys' b' j → b' < i → i < j →
    start i ≤ start j

/-- A refresh leaves the revision that a replacement compares, so that only replacements can
store what was fetched before the list they replace. -/
theorem newest_wins_iff (hid : r.DrawnOnce id) {start : ℕ → ℚ} (hstart : r.FetchedAt id start) :
    r.NewestWins id start ↔ r.NoneOvertaken id start := by
  constructor
  · intro h keys b i keys' b' j hi hj _ hij
    exact h keys b i keys' b' j (.inl hi) (.inr hj) hij
  · intro h keys b i keys' b' j hi hj hij
    rcases published_after hid hi hj hij with hlt | ⟨hi, hj, hlt⟩
    · have hbefore := (hstart keys b i hi).2
      have hafter := (hstart keys' b' j hj).1
      have hcast : (i : ℚ) < b' := by exact_mod_cast hlt
      linarith
    · exact h keys b i keys' b' j hi hj hlt hij

theorem fetched_last {keys : List IdentityKey} {b i : ℕ}
    (h : r.Refreshed id keys b i ∨ r.Replaced id keys b i) :
    (b : ℚ) < i - 1 / 2 ∧ (i : ℚ) - 1 / 2 < i := by
  have hlt : b < i := by
    rcases h with h | h
    · obtain ⟨_, _, h, -⟩ := h.refresh
      exact h.order
    · obtain ⟨_, _, _, h, -⟩ := h.replace
      exact h.order
  have hcast : (b : ℚ) + 1 ≤ i := by exact_mod_cast hlt
  constructor <;> linarith

/-- If every fetch of the race is the last thing its call does, the newest list wins. -/
theorem first_newest_wins : ∃ r : World.Run Env.plain, ∃ b b',
    r.Refreshed First.tailnet.text [First.kept] b 5 ∧
    r.Replaced First.tailnet.text [First.kept, First.dropped] b' 6 ∧
    r.NewestWins First.tailnet.text fun i => i - 1 / 2 := by
  obtain ⟨r, hid, b, b', hrefreshed, hreplaced, -⟩ := First.raced_published
  refine ⟨r, b, b', hrefreshed, hreplaced, (newest_wins_iff hid ?_).mpr ?_⟩
  · exact fun keys b i h => fetched_last h
  · intro keys b i keys' b' j _ _ _ hij
    have hcast : (i : ℚ) < j := by exact_mod_cast hij
    dsimp only
    linarith

/-- The replacement fetches, the refresh fetches and publishes, and the replacement then stores its
older list: a device that was dropped is back. -/
theorem older_list_stored : ∃ (r : World.Run Env.plain) (start : ℕ → ℚ) (b b' : ℕ),
    r.DrawnOnce First.tailnet.text ∧ r.FetchedAt First.tailnet.text start ∧
    r.Refreshed First.tailnet.text [First.kept] b 5 ∧
    r.Replaced First.tailnet.text [First.kept, First.dropped] b' 6 ∧ start 6 < start 5 ∧
    ¬ r.NewestWins First.tailnet.text start := by
  obtain ⟨r, hid, b, b', hrefreshed, hreplaced, hread⟩ := First.raced_published
  refine ⟨r, fun i => if i = 6 then 7 / 2 else i - 1 / 2, b, b', hid, ?_, hrefreshed, hreplaced,
    by norm_num, fun h => ?_⟩
  · intro keys b i h
    by_cases hi : i = 6
    · subst hi
      rw [hread b keys h]
      norm_num
    · simp only [if_neg hi]
      exact fetched_last h
  · have := h _ b 5 _ b' 6 (.inl hrefreshed) (.inr hreplaced) (by omega)
    norm_num at this

end World.Run
end UniDERP
