import UniDERP.Control.Roles

namespace UniDERP

namespace Web

def counted (attempts : Table String Attempt) (ip : String) (t : Int) : ℕ :=
  match attempts.get? ip with
  | none => 0
  | some a => if t < a.until_ then a.count else 0

end Web

def RequestPhase.admitted : RequestPhase → Bool
  | .received | .checked => false
  | .counted | .opened | .reading | .verified | .loggedIn => true

section Step

variable {compareHashAndPassword : String → String → Bool} {E : Env} {w w' : Web} {a : WebAct}
  {ip : String} {t : Int}

theorem Web.counted_delete {attempts : Table String Attempt} {now : Int} (ht : now ≤ t) :
    Web.counted (attempts.delete fun _ a => ¬ now < a.until_) ip t = Web.counted attempts ip t := by
  unfold Web.counted
  rw [Table.get?_delete]
  cases attempts.get? ip with
  | none => rfl
  | some a =>
    by_cases hnow : now < a.until_
    · simp [Option.filter, hnow]
    · simp [Option.filter, hnow, show ¬ t < a.until_ by omega]

theorem Web.counted_insert {attempts : Table String Attempt} {a : Attempt} :
    Web.counted (attempts.insert ip a) ip t = if t < a.until_ then a.count else 0 := by
  simp [Web.counted]

theorem Web.counted_insert_ne {attempts : Table String Attempt} {a : Attempt} {ip' : String}
    (h : ip ≠ ip') : Web.counted (attempts.insert ip' a) ip t = Web.counted attempts ip t := by
  unfold Web.counted
  rw [Table.get?_insert_ne _ _ h]

theorem Web.counted_erase_ne {attempts : Table String Attempt} {ip' : String}
    (h : ip ≠ ip') : Web.counted (attempts.erase ip') ip t = Web.counted attempts ip t := by
  unfold Web.counted
  rw [Table.get?_erase_ne _ h]

/-- The limiter refuses a request, or counts it if fewer than five count. -/
inductive Limited (w : Web) (n : ℕ) (q : LoginRequest) (now : Int) (w' : Web) : Prop
  | refused (attempts : w'.attempts = w.attempts.delete fun _ a => ¬ now < a.until_)
      (requests : w'.requests = w.requests.erase n)
  | admitted (few : Web.counted w.attempts q.ip now < 5)
      (attempts : w'.attempts = (w.attempts.delete fun _ a => ¬ now < a.until_).insert q.ip
        ⟨Web.counted w.attempts q.ip now + 1, now + 60 * second⟩)
      (requests : w'.requests = w.requests.insert n (q, .counted))

theorem Web.limit_limited (w : Web) (n : ℕ) (q : LoginRequest) (now : Int) :
    Limited w n q now (w.limit n q now) := by
  have hcount : (((w.attempts.delete fun _ a => ¬ now < a.until_).get? q.ip).map
      (·.count)).getD 0 = Web.counted w.attempts q.ip now := by
    unfold Web.counted
    rw [Table.get?_delete]
    cases w.attempts.get? q.ip with
    | none => rfl
    | some a => by_cases hnow : now < a.until_ <;> simp [Option.filter, hnow]
  simp only [Web.limit, hcount]
  split_ifs with hfull
  · exact .refused rfl rfl
  · push Not at hfull
    exact .admitted hfull.1 rfl rfl

inductive WebEdit (w : Web) (a : WebAct) (w' : Web) : Prop
  | apart (act : ∀ n now, a ≠ .count n now) (attempts : w'.attempts = w.attempts)
      (requests : w'.requests = w.requests)
  | received {n : ℕ} {q : LoginRequest} (act : a = .receive n q)
      (attempts : w'.attempts = w.attempts)
      (requests : w'.requests = w.requests.insert n (q, .received))
  | moved {n : ℕ} {q : LoginRequest} {phase phase' : RequestPhase}
      (act : ∀ n now, a ≠ .count n now) (request : w.requests.get? n = some (q, phase))
      (on : phase'.admitted → phase.admitted) (attempts : w'.attempts = w.attempts)
      (requests : w'.requests = w.requests.insert n (q, phase'))
  | dropped {n : ℕ} (act : ∀ n now, a ≠ .count n now) (attempts : w'.attempts = w.attempts)
      (requests : w'.requests = w.requests.erase n)
  | limited {n : ℕ} {now : Int} {q : LoginRequest} (act : a = .count n now)
      (request : w.requests.get? n = some (q, .checked)) (limited : Limited w n q now w')
  | passed {n : ℕ} {q : LoginRequest} (act : a = .forget n)
      (request : w.requests.get? n = some (q, .loggedIn))
      (attempts : w'.attempts = w.attempts.erase q.ip)
      (requests : w'.requests = w.requests.erase n)

theorem WebEdit.of_logIn {n : ℕ} {act : AuthAct} {q : LoginRequest} {phase phase' : RequestPhase}
    (hact : ∀ n now, a ≠ .count n now) (hrequest : w.requests.get? n = some (q, phase))
    (hon : phase'.admitted → phase.admitted) :
    WebEdit w a (w.logIn compareHashAndPassword E n act (·.advance n q phase')) := by
  unfold Web.logIn
  split
  · exact .moved hact hrequest hon rfl rfl
  · exact .dropped hact rfl rfl

theorem Web.Step.edit (h : Web.Step compareHashAndPassword E w a w') : WebEdit w a w' := by
  cases a <;> simp only [Web.Step, Web.act] at h
  case other act =>
    obtain ⟨auth, -, rfl⟩ := Option.map_eq_some_iff.mp h
    exact .apart (by simp) rfl rfl
  case receive n q =>
    split_ifs at h
    cases h
    exact .received rfl rfl rfl
  case check n =>
    split at h <;> cases h
    rename_i q hq
    split_ifs
    · exact .dropped (by simp) rfl rfl
    · exact .moved (by simp) hq (by simp [RequestPhase.admitted]) rfl rfl
  case count n now =>
    split at h <;> cases h
    rename_i q hq
    exact .limited rfl hq (w.limit_limited n q now)
  case create n c id hash =>
    split at h <;> cases h
    rename_i q hq
    split
    · exact .dropped (by simp) rfl rfl
    split_ifs
    · split
      · exact .moved (by simp) hq (by simp [RequestPhase.admitted]) rfl rfl
      · exact .dropped (by simp) rfl rfl
    · exact .moved (by simp) hq (by simp [RequestPhase.admitted]) rfl rfl
  case login n =>
    split at h
    · rename_i q hq
      obtain ⟨⟨username, password⟩, -, rfl⟩ := Option.map_eq_some_iff.mp h
      exact .of_logIn (by simp) hq (by simp [RequestPhase.admitted])
    · cases h
  case verify n =>
    split at h <;> cases h
    rename_i q hq
    exact .of_logIn (by simp) hq (by simp [RequestPhase.admitted])
  case insert n c token =>
    split at h <;> cases h
    rename_i q hq
    exact .of_logIn (by simp) hq (by simp [RequestPhase.admitted])
  case forget n =>
    split at h <;> cases h
    rename_i q hq
    exact .passed rfl hq rfl rfl

end Step

namespace Web

section Requests

variable {compareHashAndPassword : String → String → Bool} {E : Env}
  (r : Web.Run compareHashAndPassword E)

/-- The request is let through at step `i`. -/
structure Admitted (i n : ℕ) (q : LoginRequest) (now : Int) : Prop where
  inside : i < r.len
  label : r.label i = .count n now
  before : (r.state i).requests.get? n = some (q, .checked)
  after : (r.state (i + 1)).requests.get? n = some (q, .counted)

/-- A request let through at step `i` is in progress until step `k`. -/
def InProgress (i k n : ℕ) (q : LoginRequest) : Prop :=
  i < k ∧ ∀ m, i < m → m ≤ k → ∃ phase, phase.admitted ∧
    (r.state m).requests.get? n = some (q, phase)

/-- The login of the request has succeeded, and the limiter forgets its address at step `k`. -/
structure Passes (k n : ℕ) (q : LoginRequest) : Prop where
  label : r.label k = .forget n
  request : (r.state k).requests.get? n = some (q, .loggedIn)

/-- The password check of the request fails at step `k`, for the account of this id, whichever way
the request spells its name. -/
structure Fails (k n : ℕ) (q : LoginRequest) (account : String) : Prop where
  label : r.label k = .verify n
  request : (r.state k).requests.get? n = some (q, .reading)
  check : ∃ row password, row.id = account ∧
    (r.state k).auth.calls.get? n = some (.login row password false) ∧
    ¬ (compareHashAndPassword row.hash password ∧ row.enabled)

/-- The request that is let through at step `i` comes from the address, in the minute from `start`
on, and ends in a failed password check for the account. -/
def Guess (ip account : String) (start : Int) (i : ℕ) : Prop :=
  ∃ n q now k, Admitted r i n q now ∧ q.ip = ip ∧ start ≤ now ∧ now < start + 60 * second ∧
    k < r.len ∧ InProgress r i k n q ∧ Fails r k n q account

def Ordered : Prop :=
  ∀ i j n m now now', i ≤ j → j < r.len → r.label i = .count n now → r.label j = .count m now' →
    now ≤ now'

/-- Whenever the limiter forgets the address after a login, it counts no attempt of the address but
the one of this login. -/
def Alone (ip : String) : Prop :=
  ∀ i k n q now entry, k < r.len → Admitted r i n q now → InProgress r i k n q → q.ip = ip →
    Passes r k n q → (r.state k).attempts.get? ip = some entry →
    entry = ⟨1, now + 60 * second⟩

variable {r} {i k n : ℕ} {q : LoginRequest} {now : Int} {account ip : String}

theorem Passes.gone (h : Passes r k n q) (hk : k < r.len) :
    (r.state (k + 1)).requests.get? n = none := by
  have hstep := r.next k hk
  simp only [h.label, Web.Step, Web.act, h.request, Option.some.injEq] at hstep
  rw [← hstep]
  exact Table.get?_erase_self _ _

theorem Fails.gone (h : Fails r k n q account) (hk : k < r.len) :
    (r.state (k + 1)).requests.get? n = none := by
  obtain ⟨row, password, -, hcall, hcheck⟩ := h.check
  have hstep := r.next k hk
  have hnone : (r.state k).auth.act compareHashAndPassword E (.loginVerify n) = none := by
    simp [Auth.act, hcall, hcheck]
  simp only [h.label, Web.Step, Web.act, h.request, Web.logIn, hnone, Option.some.injEq] at hstep
  rw [← hstep]
  exact Table.get?_erase_self _ _

theorem InProgress.not_gone {m : ℕ} (h : InProgress r i k n q) (him : i < m) (hmk : m ≤ k) :
    (r.state m).requests.get? n ≠ none := by
  obtain ⟨phase, -, hq⟩ := h.2 m him hmk
  simp [hq]

/-- A request past the limiter was there before, or is let through by this step. -/
theorem admitted_step {phase : RequestPhase} (hk : k < r.len) (hphase : phase.admitted)
    (hq : (r.state (k + 1)).requests.get? n = some (q, phase)) :
    (∃ phase₀, phase₀.admitted ∧ (r.state k).requests.get? n = some (q, phase₀)) ∨
      ∃ now, Admitted r k n q now := by
  have herase : ∀ {m : ℕ}, (r.state (k + 1)).requests = (r.state k).requests.erase m →
      (r.state k).requests.get? n = some (q, phase) := by
    intro m hrequests
    rw [hrequests, Table.get?_erase] at hq
    split_ifs at hq
    exact hq
  cases (r.next k hk).edit with
  | apart _ _ requests => exact .inl ⟨phase, hphase, requests ▸ hq⟩
  | received _ _ requests =>
    rw [requests] at hq
    rcases Table.get?_insert_eq_some.mp hq with ⟨rfl, hnew⟩ | ⟨-, hold⟩
    · cases hnew
      cases hphase
    · exact .inl ⟨phase, hphase, hold⟩
  | moved _ request on _ requests =>
    rw [requests] at hq
    rcases Table.get?_insert_eq_some.mp hq with ⟨rfl, hnew⟩ | ⟨-, hold⟩
    · cases hnew
      exact .inl ⟨_, on hphase, request⟩
    · exact .inl ⟨phase, hphase, hold⟩
  | dropped _ _ requests => exact .inl ⟨phase, hphase, herase requests⟩
  | passed _ _ _ requests => exact .inl ⟨phase, hphase, herase requests⟩
  -- Only here does a request become admitted.
  | limited act request limited =>
    cases limited with
    | refused _ requests => exact .inl ⟨phase, hphase, herase requests⟩
    | admitted _ _ requests =>
      have hq' := hq
      rw [requests] at hq'
      rcases Table.get?_insert_eq_some.mp hq' with ⟨rfl, hnew⟩ | ⟨-, hold⟩
      · cases hnew
        exact .inr ⟨_, hk, act, request, hq⟩
      · exact .inl ⟨phase, hphase, hold⟩

theorem admitted_earlier {phase : RequestPhase} (hk : k ≤ r.len) (hphase : phase.admitted)
    (hq : (r.state k).requests.get? n = some (q, phase)) :
    ∃ i now, Admitted r i n q now ∧ InProgress r i k n q := by
  induction k generalizing phase with
  | zero =>
    rw [r.start] at hq
    cases hq
  | succ k ih =>
    rcases admitted_step hk hphase hq with ⟨phase₀, hphase₀, hq₀⟩ | ⟨now, hnow⟩
    · obtain ⟨i, now, hadmitted, hik, hprogress⟩ := ih (by omega) hphase₀ hq₀
      refine ⟨i, now, hadmitted, by omega, fun m him hmk => ?_⟩
      rcases Nat.lt_or_eq_of_le hmk with hlt | rfl
      · exact hprogress m him (by omega)
      · exact ⟨phase, hphase, hq⟩
    · refine ⟨k, now, hnow, by omega, fun m him hmk => ?_⟩
      obtain rfl : m = k + 1 := by omega
      exact ⟨phase, hphase, hq⟩

theorem InProgress.not_passes {m : ℕ} (h : InProgress r i k n q) (hk : k ≤ r.len) (him : i < m)
    (hmk : m < k) : ¬ Passes r m n q := by
  intro hp
  exact h.not_gone (by omega) hmk (hp.gone (by omega))

theorem Fails.not_passes {m : ℕ} (h : Fails r k n q account) (hk : k < r.len)
    (hp : InProgress r i k n q) (hm : InProgress r i m n q) : ¬ Passes r m n q := by
  intro hpass
  rcases Nat.lt_trichotomy m k with hlt | rfl | hlt
  · exact hp.not_passes hk.le hm.1 hlt hpass
  · cases h.label.symm.trans hpass.label
  · exact hm.not_gone (by have := hp.1; omega) hlt (h.gone hk)

variable (r) in
/-- A request of the address that was let through at `i`, less than a minute before `t`, and that
has not passed before step `k`. -/
def Open (ip : String) (t : Int) (k i : ℕ) : Prop :=
  i < k ∧ ∃ n q now, Admitted r i n q now ∧ q.ip = ip ∧ t < now + 60 * second ∧
    ∀ m < k, InProgress r i m n q → ¬ Passes r m n q

theorem Admitted.unique {n' : ℕ} {q' : LoginRequest} {now' : Int} (h : Admitted r i n q now)
    (h' : Admitted r i n' q' now') : n = n' ∧ q = q' ∧ now = now' := by
  have hlabel := h.label.symm.trans h'.label
  rw [WebAct.count.injEq] at hlabel
  obtain ⟨rfl, rfl⟩ := hlabel
  have hbefore := h.before.symm.trans h'.before
  rw [Option.some.injEq, Prod.mk.injEq] at hbefore
  exact ⟨rfl, hbefore.1, rfl⟩

theorem Open.mono {t t' : Int} {k' : ℕ} (h : Open r ip t k i) (ht : t' ≤ t) (hk : k' ≤ k)
    (hi : i < k') : Open r ip t' k' i := by
  obtain ⟨-, n, q, now, ha, hip, hnow, hpass⟩ := h
  exact ⟨hi, n, q, now, ha, hip, by omega, fun m hm => hpass m (by omega)⟩

variable (r) in
structure Tallied (ip : String) (k : ℕ) : Prop where
  tally : ∀ t, (∀ i < k, ∀ n now, r.label i = .count n now → now ≤ t) →
    ∀ s : Finset ℕ, (∀ i ∈ s, Open r ip t k i) → s.card ≤ counted (r.state k).attempts ip t
  few : ∀ a, (r.state k).attempts.get? ip = some a → a.count ≤ 5

theorem Tallied.start : Tallied r ip 0 := by
  refine ⟨fun t _ s hs => ?_, fun a ha => ?_⟩
  · rw [Finset.eq_empty_of_forall_notMem fun i hi => absurd (hs i hi).1 (by omega)]
    exact Nat.zero_le _
  · rw [r.start] at ha
    cases ha

theorem Open.back {t : Int} (h : Open r ip t (k + 1) i)
    (hk : ∀ n q now, Admitted r k n q now → q.ip ≠ ip) : Open r ip t k i := by
  apply h.mono le_rfl (by omega)
  obtain ⟨hi, n, q, now, ha, hip, -⟩ := h
  rcases Nat.lt_or_eq_of_le (Nat.le_of_lt_succ hi) with hlt | rfl
  · exact hlt
  · exact absurd hip (hk n q now ha)

theorem Tallied.kept (h : Tallied r ip k) (hk : ∀ n q now, Admitted r k n q now → q.ip ≠ ip)
    (hcounted : ∀ t, (∀ n now, r.label k = .count n now → now ≤ t) →
      counted (r.state k).attempts ip t ≤ counted (r.state (k + 1)).attempts ip t)
    (hfew : ∀ a, (r.state (k + 1)).attempts.get? ip = some a → a.count ≤ 5) :
    Tallied r ip (k + 1) := by
  refine ⟨fun t ht s hs => ?_, hfew⟩
  apply (h.tally t (fun i hi => ht i (by omega)) s fun i hi => (hs i hi).back hk).trans
  exact hcounted t (ht k (by omega))

/-- The limiter at a request of the address. -/
theorem Tallied.admitted (h : Tallied r ip k) (hk : k < r.len) (hordered : Ordered r)
    (hlabel : r.label k = .count n now) (hfew : counted (r.state k).attempts ip now < 5)
    (hattempts : (r.state (k + 1)).attempts =
      ((r.state k).attempts.delete fun _ a => ¬ now < a.until_).insert ip
        ⟨counted (r.state k).attempts ip now + 1, now + 60 * second⟩) : Tallied r ip (k + 1) := by
  have hpast : ∀ i < k, ∀ m now', r.label i = .count m now' → now' ≤ now :=
    fun i hi m now' hi' => hordered i k m n now' now (by omega) hk hi' hlabel
  refine ⟨fun t ht s hs => ?_, fun a ha => ?_⟩
  · rw [hattempts, counted_insert]
    dsimp only
    have hnow : now ≤ t := ht k (by omega) n now hlabel
    split_ifs with hlive
    · -- Besides this request, what is open at `t` was open when it was counted.
      have hothers : (s.erase k).card ≤ counted (r.state k).attempts ip now := by
        refine h.tally now hpast _ fun i hi => ?_
        have hopen := hs i (Finset.mem_of_mem_erase hi)
        have hne := Finset.ne_of_mem_erase hi
        exact hopen.mono hnow (by omega) (by have := hopen.1; omega)
      have hcard := Finset.pred_card_le_card_erase (s := s) (a := k)
      omega
    · -- No request is younger than this one.
      have hempty : s = ∅ := by
        apply Finset.eq_empty_of_forall_notMem
        intro i hi
        obtain ⟨hik, m, q', now', ha, -, hyoung, -⟩ := hs i hi
        have hle : now' ≤ now := hordered i k m n now' now (by omega) hk ha.label hlabel
        omega
      simp [hempty]
  · rw [hattempts, Table.get?_insert_self, Option.some.injEq] at ha
    subst ha
    exact hfew

/-- A login of the address succeeds, and no other attempt of it counts. -/
theorem Tallied.passed (h : Tallied r ip k) (hk : k < r.len) (halone : Alone r ip)
    (hpass : Passes r k n q) (hip : q.ip = ip) (hlabel : ∀ n now, r.label k ≠ .count n now)
    (hattempts : (r.state (k + 1)).attempts = (r.state k).attempts.erase ip) :
    Tallied r ip (k + 1) := by
  obtain ⟨i₀, now, hadmitted, hprogress⟩ := admitted_earlier hk.le rfl hpass.request
  refine ⟨fun t ht s hs => ?_, fun a ha => ?_⟩
  · have hold : ∀ i ∈ s, Open r ip t k i := fun i hi => (hs i hi).back fun n q now ha =>
      absurd ha.label (hlabel n now)
    have htally := h.tally t fun i hi => ht i (by omega)
    have hone : counted (r.state k).attempts ip t ≤ if t < now + 60 * second then 1 else 0 := by
      unfold counted
      split
      · exact Nat.zero_le _
      · rename_i entry hentry
        rw [halone i₀ k n q now entry hk hadmitted hprogress hip hpass hentry]
    -- The passing request was open as long as it counted, and nothing else was.
    have hempty : s.card = 0 := by
      by_cases hlive : t < now + 60 * second
      · have hnew : i₀ ∉ s := by
          intro hi
          obtain ⟨-, n', q', now', ha, -, -, hnot⟩ := hs i₀ hi
          obtain ⟨rfl, rfl, rfl⟩ := hadmitted.unique ha
          exact hnot k (by omega) hprogress hpass
        have hopen : Open r ip t k i₀ := ⟨hprogress.1, n, q, now, hadmitted, hip, hlive,
          fun m hm hmp => hprogress.not_passes hk.le hmp.1 hm⟩
        have hcard := htally (insert i₀ s) fun i hi => by
          rcases Finset.mem_insert.mp hi with rfl | hi
          · exact hopen
          · exact hold i hi
        rw [Finset.card_insert_of_notMem hnew] at hcard
        rw [if_pos hlive] at hone
        omega
      · have hcard := htally s hold
        rw [if_neg hlive] at hone
        omega
    omega
  · rw [hattempts, Table.get?_erase_self] at ha
    cases ha

theorem Tallied.step (h : Tallied r ip k) (hk : k < r.len) (hordered : Ordered r)
    (halone : Alone r ip) : Tallied r ip (k + 1) := by
  have hsame : (∀ n now, r.label k ≠ .count n now) →
      (r.state (k + 1)).attempts = (r.state k).attempts → Tallied r ip (k + 1) := by
    intro hlabel hattempts
    refine h.kept (fun n q now ha => absurd ha.label (hlabel n now)) (fun t _ => ?_) fun a ha => ?_
    · rw [hattempts]
    · exact h.few a (hattempts ▸ ha)
  cases (r.next k hk).edit with
  | apart act attempts _ => exact hsame act attempts
  | received act attempts _ => exact hsame (by simp [act]) attempts
  | moved act _ _ attempts _ => exact hsame act attempts
  | dropped act attempts _ => exact hsame act attempts
  | @limited n now q act request limited =>
    have hpurge : ∀ a, ((r.state k).attempts.delete fun _ a => ¬ now < a.until_).get? ip = some a →
        a.count ≤ 5 := fun a ha => h.few a (Table.get?_delete_eq_some.mp ha).1
    have hlater : ∀ t, (∀ n now, r.label k = .count n now → now ≤ t) → now ≤ t :=
      fun t ht => ht n now act
    cases limited with
    | refused attempts requests =>
      refine h.kept (fun n' q' now' ha => ?_) (fun t ht => ?_) (attempts ▸ hpurge)
      · have hn : n' = n := by
          have hlabel := ha.label.symm.trans act
          rw [WebAct.count.injEq] at hlabel
          exact hlabel.1
        have hafter := ha.after
        rw [requests, hn, Table.get?_erase_self] at hafter
        cases hafter
      · rw [attempts, counted_delete (hlater t ht)]
    | admitted few attempts requests =>
      -- Another address has a count of its own.
      by_cases hip : q.ip = ip
      · rw [hip] at few attempts
        exact h.admitted hk hordered act few attempts
      · refine h.kept (fun n' q' now' ha => ?_) (fun t ht => ?_) fun a ha => ?_
        · have hsame : Admitted r k n q now :=
            ⟨hk, act, request, by rw [requests, Table.get?_insert_self]⟩
          rw [← (hsame.unique ha).2.1]
          exact hip
        · rw [attempts, counted_insert_ne (Ne.symm hip), counted_delete (hlater t ht)]
        · rw [attempts, Table.get?_insert_ne _ _ (Ne.symm hip)] at ha
          exact hpurge a ha
  | @passed n q act request attempts _ =>
    have hlabel : ∀ n now, r.label k ≠ .count n now := by simp [act]
    by_cases hip : q.ip = ip
    · exact h.passed hk halone ⟨act, request⟩ hip hlabel (hip ▸ attempts)
    · refine h.kept (fun n q now ha => absurd ha.label (hlabel n now)) (fun t _ => ?_)
        fun a ha => ?_
      · rw [attempts, counted_erase_ne (Ne.symm hip)]
      · rw [attempts, Table.get?_erase_ne _ (Ne.symm hip)] at ha
        exact h.few a ha

theorem tallied (hordered : Ordered r) (halone : Alone r ip) (hk : k ≤ r.len) :
    Tallied r ip k := by
  induction k with
  | zero => exact .start
  | succ k ih => exact (ih (by omega)).step hk hordered halone

theorem Tallied.counted_le (h : Tallied r ip k) (t : Int) :
    counted (r.state k).attempts ip t ≤ 5 := by
  unfold counted
  split
  · exact Nat.zero_le _
  · rename_i a ha
    split_ifs
    · exact h.few a ha
    · exact Nat.zero_le _

/-- As long as every login of the address that succeeds finds no other attempt of it counted, no
more than five of its requests in a minute end in a failed password check, for any account. -/
theorem Run.guesses_limited (compareHashAndPassword : String → String → Bool) (E : Env)
    (r : Web.Run compareHashAndPassword E) (hordered : Ordered r) (ip : String)
    (halone : Alone r ip) (account : String) (start : Int) (s : Finset ℕ)
    (hs : ∀ i ∈ s, Guess r ip account start i) : s.card ≤ 5 := by
  rcases s.eq_empty_or_nonempty with rfl | hne
  · simp
  -- The last of the requests counts together with all the others.
  obtain ⟨n, q, now, k, hadmitted, hip, hfrom, huntil, -⟩ := hs _ (s.max'_mem hne)
  have hk : s.max' hne + 1 ≤ r.len := hadmitted.inside
  have htallied := tallied hordered halone hk
  have hopen : ∀ i ∈ s, Open r ip now (s.max' hne + 1) i := by
    intro i hi
    obtain ⟨n', q', now', k', hadmitted', hip', hfrom', -, hk', hprogress', hfails'⟩ := hs i hi
    refine ⟨Nat.lt_succ_of_le (s.le_max' i hi), n', q', now', hadmitted', hip', by omega, ?_⟩
    intro m _ hm
    exact hfails'.not_passes hk' hprogress' hm
  refine (htallied.tally now (fun i hi m now' hlabel => ?_) s hopen).trans (htallied.counted_le now)
  exact hordered i _ m n now' now (by omega) hk hlabel hadmitted.label

end Requests

section Sample

def plainHash (hash password : String) : Bool := hash = password

def guessing (username password : String) : LoginRequest :=
  ⟨false, "", "", none, "192.0.2.1", some (username, password)⟩

def trying (username password : String) : List WebAct :=
  [.receive 0 (guessing username password), .check 0, .count 0 0,
    .create 0 First.clock First.node "", .login 0, .verify 0]

def opening : List WebAct := [
  .other (.commit First.clock (.initializeAdmin "admin" "a long password" First.owner
    "a long password")),
  .other (.commit First.clock (.createAccount First.admin "guest" "another password" .member
    First.guestID "another password"))]

noncomputable def progress (acts : List WebAct) (i : ℕ) :
    Option (Option (LoginRequest × RequestPhase) × Option AuthCall × Option Attempt) :=
  (UniDERP.Run.play (act plainHash Env.plain) (acts.take i) {}).map fun w =>
    (w.requests.get? 0, w.auth.calls.get? 0, w.attempts.get? "192.0.2.1")

/-- A guess at the first account, under one spelling of its name or another, is let through after
`i` acts and checked three acts later. -/
noncomputable def seen (acts : List WebAct) (i : ℕ) : Bool :=
  ["admin", "Admin"].any fun username =>
    ((List.range 4).map fun j => (progress acts (i + j)).bind Prod.fst) =
        [.checked, .counted, .opened, .reading].map (fun phase =>
          some (guessing username "wrong", phase)) &&
      (progress acts (i + 3)).bind (·.2.1) =
        some (.login ⟨First.owner.text, "a long password", 1, true⟩ "wrong" false)

structure Played (acts : List WebAct) (r : Web.Run plainHash Env.plain) : Prop where
  len : r.len = acts.length
  state : ∀ i ≤ acts.length,
    UniDERP.Run.play (act plainHash Env.plain) (acts.take i) {} = some (r.state i)
  label : ∀ i a, acts[i]? = some a → r.label i = a

theorem exists_played {acts : List WebAct} (h : (progress acts acts.length).isSome) :
    ∃ r, Played acts r := by
  rw [progress, List.take_length, Option.isSome_map] at h
  obtain ⟨w, hw⟩ := Option.isSome_iff_exists.mp h
  obtain ⟨r, hlen, hstate, hlabel⟩ : ∃ r : Web.Run plainHash Env.plain, r.len = acts.length ∧
      (∀ i ≤ acts.length,
        UniDERP.Run.play (act plainHash Env.plain) (acts.take i) {} = some (r.state i)) ∧
      ∀ i a, acts[i]? = some a → r.label i = a :=
    UniDERP.Run.of_play (R := Eq) (fun _ a _ h => ⟨a, rfl, h⟩) (WebAct.check 0) rfl hw
  exact ⟨r, hlen, hstate, hlabel⟩

variable {acts : List WebAct} {r : Web.Run plainHash Env.plain}

theorem Played.progress_eq (h : Played acts r) {i : ℕ} (hi : i ≤ acts.length) :
    progress acts i = some ((r.state i).requests.get? 0, (r.state i).auth.calls.get? 0,
      (r.state i).attempts.get? "192.0.2.1") := by
  rw [progress, h.state i hi, Option.map_some]

theorem Played.guess (h : Played acts r) {i : ℕ} (hcount : acts[i]? = some (.count 0 0))
    (hverify : acts[i + 3]? = some (.verify 0)) (hseen : seen acts i) :
    Guess r "192.0.2.1" First.owner.text 0 i := by
  have hlast : i + 3 < acts.length := (List.getElem?_eq_some_iff.mp hverify).1
  simp only [seen, List.any_eq_true, Bool.and_eq_true, decide_eq_true_eq] at hseen
  obtain ⟨username, -, hphases, hcall⟩ := hseen
  rw [h.progress_eq (by omega)] at hcall
  simp only [List.range_succ, List.range_zero, List.nil_append, List.cons_append, List.map_cons,
    List.map_nil, Nat.add_zero, h.progress_eq (show i ≤ acts.length by omega),
    h.progress_eq (show i + 1 ≤ acts.length by omega),
    h.progress_eq (show i + 2 ≤ acts.length by omega),
    h.progress_eq (show i + 3 ≤ acts.length by omega), Option.bind_some, List.cons.injEq,
    and_true] at hphases
  obtain ⟨hchecked, hcounted, hopened, hreading⟩ := hphases
  refine ⟨0, guessing username "wrong", 0, i + 3, ⟨by have := h.len; omega, h.label i _ hcount,
    hchecked, hcounted⟩, rfl, le_rfl, by decide, by have := h.len; omega, ⟨by omega, ?_⟩,
    h.label _ _ hverify, hreading, _, _, rfl, hcall, by decide⟩
  intro m him hmk
  have hm : m = i + 1 ∨ m = i + 2 ∨ m = i + 3 := by omega
  rcases hm with rfl | rfl | rfl
  · exact ⟨_, rfl, hcounted⟩
  · exact ⟨_, rfl, hopened⟩
  · exact ⟨_, rfl, hreading⟩

def atOnce (acts : List WebAct) : Bool :=
  acts.all fun a => match a with
    | .count _ now => now = 0
    | _ => true

theorem Played.count_zero (h : Played acts r) (honce : atOnce acts) {i n : ℕ} {now : Int}
    (hi : i < r.len) (hlabel : r.label i = .count n now) : now = 0 := by
  have hi' : i < acts.length := h.len ▸ hi
  have hact := h.label i _ (List.getElem?_eq_getElem hi')
  have hall := List.all_eq_true.mp honce _ (List.getElem_mem hi')
  rw [← hact, hlabel] at hall
  simpa using hall

theorem Played.ordered (h : Played acts r) (honce : atOnce acts) : Ordered r := by
  intro i j n m now now' hij hj hi hj'
  rw [h.count_zero honce (by omega) hi, h.count_zero honce hj hj']

def isForget : WebAct → Bool
  | .forget _ => true
  | _ => false

theorem Played.alone (h : Played acts r) (honce : atOnce acts) {j : ℕ}
    (hone : ∀ k < acts.length, (acts.map isForget)[k]? = some true → k = j)
    (hcount : (progress acts j).bind (·.2.2) = some ⟨1, 60 * second⟩) :
    Alone r "192.0.2.1" := by
  intro i k n q now entry hk hadmitted _ _ hpass hentry
  have hk' : k < acts.length := h.len ▸ hk
  have hact := h.label k _ (List.getElem?_eq_getElem hk')
  obtain rfl : k = j := by
    apply hone k hk'
    rw [List.getElem?_map, List.getElem?_eq_getElem hk', ← hact, hpass.label]
    rfl
  rw [h.progress_eq hk'.le, Option.bind_some, hentry, Option.some.injEq] at hcount
  rw [hcount, h.count_zero honce hadmitted.inside hadmitted.label, Int.zero_add]

def guessesAfterLogin : List WebAct :=
  opening ++ (trying "guest" "another password" ++
    [.insert 0 First.clock First.session, .forget 0]) ++
    (List.replicate 3 (trying "admin" "wrong") ++ List.replicate 2 (trying "Admin" "wrong")).flatten

/-- Someone guesses at one account and logs in to their own after every four guesses. -/
def guessesBetweenLogins : List WebAct :=
  opening ++ (List.replicate 4 (trying "admin" "wrong")).flatten ++
    (trying "guest" "another password" ++
    [.insert 0 First.clock First.session, .forget 0]) ++
    (List.replicate 2 (trying "Admin" "wrong")).flatten

theorem six_guesses_in_a_minute : ∃ r : Web.Run plainHash Env.plain, Ordered r ∧
    ∃ s : Finset ℕ, s.card = 6 ∧ ∀ i ∈ s, Guess r "192.0.2.1" First.owner.text 0 i := by
  obtain ⟨r, hr⟩ : ∃ r, Played guessesBetweenLogins r := exists_played (by decide +kernel)
  have hseen : ∀ i ∈ [4, 10, 16, 22, 36, 42], seen guessesBetweenLogins i := by decide +kernel
  refine ⟨r, hr.ordered (by decide +kernel), {4, 10, 16, 22, 36, 42}, rfl, fun i hi => ?_⟩
  have hi' : seen guessesBetweenLogins i := hseen i (by simpa using hi)
  simp only [Finset.mem_insert, Finset.mem_singleton] at hi
  rcases hi with rfl | rfl | rfl | rfl | rfl | rfl <;> exact hr.guess rfl rfl hi'

theorem five_guesses_after_login : ∃ r : Web.Run plainHash Env.plain, Ordered r ∧
    Alone r "192.0.2.1" ∧ ∃ s : Finset ℕ, s.card = 5 ∧ s.card ≤ 5 ∧
      ∀ i ∈ s, Guess r "192.0.2.1" First.owner.text 0 i := by
  obtain ⟨r, hr⟩ : ∃ r, Played guessesAfterLogin r := exists_played (by decide +kernel)
  have honce : atOnce guessesAfterLogin := by decide +kernel
  have hseen : ∀ i ∈ [12, 18, 24, 30, 36], seen guessesAfterLogin i := by decide +kernel
  have hguess : ∀ i ∈ ({12, 18, 24, 30, 36} : Finset ℕ), Guess r "192.0.2.1" First.owner.text 0 i := by
    intro i hi
    have hi' : seen guessesAfterLogin i := hseen i (by simpa using hi)
    simp only [Finset.mem_insert, Finset.mem_singleton] at hi
    rcases hi with rfl | rfl | rfl | rfl | rfl <;> exact hr.guess rfl rfl hi'
  have halone : Alone r "192.0.2.1" :=
    hr.alone honce (j := 9) (by decide +kernel) (by decide +kernel)
  exact ⟨r, hr.ordered honce, halone, _, rfl, Run.guesses_limited plainHash Env.plain r
    (hr.ordered honce) "192.0.2.1" halone First.owner.text 0 _ hguess, hguess⟩

end Sample

end Web

end UniDERP
