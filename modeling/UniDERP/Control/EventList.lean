import UniDERP.Control.IdentityEvents

namespace UniDERP

/-- A row of the list; the ids count the events, which are never deleted. -/
structure EventItem where
  id : ℕ
  resource : Resource
  resourceID : String
  kind : EventKind
  message : String
  createdAt : Int
  resolvedAt : Int
  deriving DecidableEq, Repr

def Event.item (x : Event × ℕ) : EventItem :=
  ⟨x.2, x.1.resource, x.1.resourceID, x.1.kind, x.1.message, x.1.createdAt, x.1.resolvedAt⟩

def Event.listed (actor : Actor) (e : Event) : Bool :=
  e.ownerID = actor.id ∨ actor.role = .admin

def Store.events (actor : Actor) (db : DB) : Except Err (List EventItem) := do
  requireOwner actor actor.id
  return (((db.events.zipIdx 1).filter fun x => x.1.listed actor).reverse.take 200).map Event.item

def DB.Visible (db : DB) (actor : Actor) (p : ℕ) : Prop :=
  ∃ items, Store.events actor db = .ok items ∧ p + 1 ∈ items.map (·.id)

def Event.identityOpen (t : String) (e : Event) : Bool :=
  e.opensFor t .identityConflict || e.opensFor t .identityUnavailable

/-- A tailnet is given to another account while an event of it is open. -/
def MovesOpen (db : DB) (op : Op) : Prop :=
  ∃ actor id newOwner tn e, op = .transferTailnet actor id newOwner ∧
    db.tailnets.get? id = some tn ∧ tn.ownerID ≠ newOwner ∧ e ∈ db.events ∧ e.identityOpen id

theorem mem_take_append_cons {α : Type} {xs ys : List α} {a : α} {n : ℕ} (hx : a ∉ xs) :
    a ∈ (xs ++ a :: ys).take n ↔ xs.length < n := by
  rw [List.take_append]
  constructor
  · intro h
    rcases List.mem_append.mp h with h | h
    · exact absurd (List.mem_of_mem_take h) hx
    · by_contra hn
      rw [show n - xs.length = 0 by omega] at h
      simp at h
  · intro h
    refine List.mem_append_right _ ?_
    obtain ⟨m, hm⟩ := Nat.exists_eq_add_of_lt h
    rw [show n - xs.length = m + 1 by omega, List.take_succ_cons]
    exact List.mem_cons_self

def listedIDs (actor : Actor) (l : List Event) (first : ℕ) : List ℕ :=
  ((l.zipIdx first).filter fun x => x.1.listed actor).map Prod.snd

section Window

variable {actor : Actor} {l l' : List Event} {e : Event} {first i : ℕ}

theorem listedIDs_append : listedIDs actor (l ++ l') first =
    listedIDs actor l first ++ listedIDs actor l' (first + l.length) := by
  simp [listedIDs, List.zipIdx_append]

theorem listedIDs_cons : listedIDs actor (e :: l) first =
    (if e.listed actor then [first] else []) ++ listedIDs actor l (first + 1) := by
  by_cases h : e.listed actor = true <;> simp [listedIDs, List.zipIdx_cons, h]

theorem length_listedIDs : (listedIDs actor l first).length = l.countP (·.listed actor) := by
  induction l generalizing first with
  | nil => rfl
  | cons e l ih =>
    rw [listedIDs_cons, List.length_append, ih, List.countP_cons]
    split_ifs <;> simp [Nat.add_comm]

theorem bounds_of_mem_listedIDs (h : i ∈ listedIDs actor l first) :
    first ≤ i ∧ i < first + l.length := by
  obtain ⟨x, hx, rfl⟩ := List.mem_map.mp h
  have hz := List.mem_zipIdx (List.mem_filter.mp hx).1
  omega

end Window

/-- An account sees an event if it is listed for the account and fewer than 200 newer ones are. -/
theorem visible_iff {db : DB} {actor : Actor} {p : ℕ} {e : Event} (he : db.events[p]? = some e) :
    db.Visible actor p ↔ Permitted actor actor.id ∧ e.listed actor ∧
      (db.events.drop (p + 1)).countP (·.listed actor) < 200 := by
  obtain ⟨hp, hget⟩ := List.getElem?_eq_some_iff.mp he
  have hids : ∀ l : List (Event × ℕ), (l.map Event.item).map (·.id) = l.map Prod.snd := by
    intro l
    rw [List.map_map]
    rfl
  have hvisible : db.Visible actor p ↔ Permitted actor actor.id ∧
      p + 1 ∈ (listedIDs actor db.events 1).reverse.take 200 := by
    simp only [DB.Visible, Store.events, Except_bind_eq_ok, requireOwner_eq_ok, exists_const,
      Except_pure_eq_ok]
    constructor
    · rintro ⟨_, ⟨hperm, rfl⟩, hmem⟩
      rw [hids, List.map_take, List.map_reverse] at hmem
      exact ⟨hperm, hmem⟩
    · rintro ⟨hperm, hmem⟩
      refine ⟨_, ⟨hperm, rfl⟩, ?_⟩
      rw [hids, List.map_take, List.map_reverse]
      exact hmem
  have hsplit : listedIDs actor db.events 1 = listedIDs actor (db.events.take p) 1 ++
      ((if e.listed actor then [p + 1] else []) ++
        listedIDs actor (db.events.drop (p + 1)) (p + 1 + 1)) := by
    conv_lhs => rw [← List.take_append_drop p db.events]
    rw [List.drop_eq_getElem_cons hp, hget, listedIDs_append, listedIDs_cons, List.length_take,
      Nat.min_eq_left hp.le, Nat.add_comm 1 p]
  -- Older events have smaller ids and newer ones greater.
  have hold : p + 1 ∉ listedIDs actor (db.events.take p) 1 := by
    intro h
    have hlt := (bounds_of_mem_listedIDs h).2
    rw [List.length_take, Nat.min_eq_left hp.le] at hlt
    omega
  have hnew : p + 1 ∉ listedIDs actor (db.events.drop (p + 1)) (p + 1 + 1) := by
    intro h
    have hle := (bounds_of_mem_listedIDs h).1
    omega
  rw [hvisible, hsplit]
  refine and_congr_right fun _ => ?_
  by_cases hlisted : e.listed actor = true
  · rw [if_pos hlisted, List.reverse_append, List.reverse_append, List.reverse_singleton,
      List.append_assoc, List.singleton_append, mem_take_append_cons, List.length_reverse,
      length_listedIDs]
    · simp [hlisted]
    · rwa [List.mem_reverse]
  · rw [if_neg hlisted, List.nil_append]
    constructor
    · intro h
      have hmem := List.mem_of_mem_take h
      rw [List.mem_reverse, List.mem_append] at hmem
      exact absurd hmem (not_or.mpr ⟨hold, hnew⟩)
    · exact fun h => absurd h.1 hlisted

theorem Effect.tailnet_owner {E : Env} {c : Clock} {db mid : DB} {op : Op} {reply : Reply}
    {S : String → Prop} (h : Effect E c db op reply mid S) {t : String} {tn : Tailnet}
    (htn : mid.tailnets.get? t = some tn) : op.addsTailnet t ∨
      ∃ tn₀, db.tailnets.get? t = some tn₀ ∧
        (tn.ownerID = tn₀.ownerID ∨ ∃ actor, op = .transferTailnet actor t tn.ownerID) := by
  cases h
  case setTailnetEnabled =>
    obtain ⟨tn₀, htn₀, rfl⟩ := Table.get?_modify_eq_some.mp htn
    refine .inr ⟨tn₀, htn₀, .inl ?_⟩
    split_ifs <;> rfl
  case transferTailnet actor id newOwner _ =>
    obtain ⟨tn₀, htn₀, rfl⟩ := Table.get?_modify_eq_some.mp htn
    refine .inr ⟨tn₀, htn₀, ?_⟩
    split_ifs with hid
    · exact .inr ⟨actor, by rw [hid]⟩
    · exact .inl rfl
  case deleteTailnet => exact .inr ⟨tn, (Table.get?_delete_eq_some.mp htn).1, .inl rfl⟩
  case addTailnet =>
    rcases Table.get?_insert_eq_some.mp htn with ⟨rfl, -⟩ | ⟨-, htn⟩
    · exact .inl (by simp [Op.addsTailnet])
    · exact .inr ⟨tn, htn, .inl rfl⟩
  all_goals exact .inr ⟨tn, htn, .inl rfl⟩

theorem Event.identityOpen_iff {t : String} {e : Event} : e.identityOpen t ↔
    e.resource = .tailnet ∧ e.resourceID = t ∧ e.resolvedAt = 0 ∧
      (e.kind = .identityConflict ∨ e.kind = .identityUnavailable) := by
  simp only [Event.identityOpen, Event.opensFor, Bool.or_eq_true, decide_eq_true_eq]
  tauto

namespace Store.Run

variable {E : Env} {r : Store.Run E} {i : ℕ} {t : String}

def Distinct (r : Store.Run E) : Prop :=
  ∀ j k id, j < k → k < r.len → (r.label j).op.addsTailnet id → ¬ (r.label k).op.addsTailnet id

theorem event_drawn (hi : i ≤ r.len) {e : Event} (he : e ∈ (r.state i).events)
    (hresource : e.resource = .tailnet) : ∃ j < i, (r.label j).op.addsTailnet e.resourceID := by
  induction i generalizing e with
  | zero =>
    have hstart : r.state 0 = DB.empty := r.start
    rw [hstart] at he
    cases he
  | succ i ih =>
    obtain ⟨e₀, hbefore, hresource₀, hid, -⟩ := (Step.edits (r.next i hi)).mem_about he
    rw [hid]
    rw [hresource₀] at hresource
    rcases hbefore with hold | hnew
    · obtain ⟨j, hj, hadds⟩ := ih (by omega) hold hresource
      exact ⟨j, by omega, hadds⟩
    · cases hnew with
      | tailnet _ _ hrow _ _ => exact tailnet_drawn hi (Table.mem_keys.mpr ⟨_, hrow⟩)
      | node hnode _ => simp [hnode] at hresource
      | grant _ hgrant _ => simp [hgrant] at hresource

/-- Open events of a tailnet are its owner's, if it is not given away while they are open. -/
theorem owner_of_open (hr : r.Distinct) (hi : i ≤ r.len)
    (hkept : ∀ k < i, ¬ MovesOpen (r.state k) (r.label k).op) {tn : Tailnet} {e : Event}
    (htn : (r.state i).tailnets.get? t = some tn) (he : e ∈ (r.state i).events)
    (hopen : e.identityOpen t) : e.ownerID = tn.ownerID := by
  induction i generalizing tn with
  | zero =>
    have hstart : r.state 0 = DB.empty := r.start
    rw [hstart] at he
    cases he
  | succ i ih =>
    obtain ⟨hresource, hid, hresolved, -⟩ := Event.identityOpen_iff.mp hopen
    have hstep := r.next i hi
    -- An open event was open before, under the owner of that time, or is written with the owner of
    -- now.
    rcases (Step.edits hstep).mem_open he hresolved with hold | hnew
    · obtain ⟨mid, S, _, heffect, hrebuilt⟩ := exec_does hstep
      rw [hrebuilt.frame] at htn
      rcases heffect.tailnet_owner htn with hadds | ⟨tn₀, htn₀, howner⟩
      · obtain ⟨j, hj, hadds₀⟩ := event_drawn (by omega) hold hresource
        exact absurd hadds (hr j i t hj hi (hid ▸ hadds₀))
      · have hbefore := ih (by omega) (fun k hk => hkept k (by omega)) htn₀ hold
        rw [hbefore]
        by_contra hne
        rcases howner with howner | ⟨actor, hop⟩
        · exact hne howner.symm
        · exact hkept i (by omega) ⟨actor, t, tn.ownerID, tn₀, e, hop, htn₀, hne, hold, hopen⟩
    · cases hnew with
      | tailnet _ _ hrow howner _ =>
        rw [hid, htn, Option.some.injEq] at hrow
        rw [howner, hrow]
      | node hnode _ => simp [hnode] at hresource
      | grant _ hgrant _ => simp [hgrant] at hresource

/-- In a run that gives no tailnet away while an event of it is open, such an event is seen by the
tailnet's owner as long as fewer than 200 newer ones are listed, and by no other account that is
not an administrator. -/
theorem open_events_visible (r : Store.Run E) (hr : r.Distinct)
    (hkept : ∀ k < r.len, ¬ MovesOpen (r.state k) (r.label k).op) (i : ℕ) (hi : i ≤ r.len)
    (t : String) (tn : Tailnet) (p : ℕ) (e : Event)
    (htn : (r.state i).tailnets.get? t = some tn) (he : (r.state i).events[p]? = some e)
    (hopen : e.identityOpen t) :
    (∀ actor : Actor, actor.enabled → actor.id ≠ "" → actor.id = tn.ownerID →
      ((r.state i).Visible actor p ↔
        ((r.state i).events.drop (p + 1)).countP (·.listed actor) < 200)) ∧
    ∀ actor : Actor, actor.role ≠ .admin → actor.id ≠ tn.ownerID →
      ¬ (r.state i).Visible actor p := by
  have howner := owner_of_open hr hi (fun k hk => hkept k (by omega)) htn
    (List.mem_of_getElem? he) hopen
  constructor
  · intro actor henabled hid hactor
    have hlisted : e.listed actor := by simp [Event.listed, howner, hactor]
    rw [visible_iff he]
    exact ⟨fun h => h.2.2, fun h => ⟨⟨henabled, hid, .inr rfl⟩, hlisted, h⟩⟩
  · intro actor hrole hactor hvisible
    have hlisted := ((visible_iff he).mp hvisible).2.1
    simp only [Event.listed, howner, hrole, or_false, decide_eq_true_eq] at hlisted
    exact hactor hlisted.symm

theorem distinct_of_ops {ops : List Op} (hlen : r.len = ops.length)
    (hlabel : ∀ i op, ops[i]? = some op → (r.label i).op = op ∧ (r.label i).clock = First.clock)
    (hops : ops.Pairwise fun a b => ∀ id, a.addsTailnet id → ¬ b.addsTailnet id) :
    r.Distinct := by
  intro j k id hjk hk
  rw [hlen] at hk
  rw [(hlabel j _ (List.getElem?_eq_getElem (hjk.trans hk))).1,
    (hlabel k _ (List.getElem?_eq_getElem hk)).1]
  exact List.pairwise_iff_getElem.mp hops j k (hjk.trans hk) hk hjk id

theorem disputed_pairwise :
    disputed.Pairwise fun a b => ∀ id, a.addsTailnet id → ¬ b.addsTailnet id := by
  have hne : First.tailnet.text ≠ First.guestTailnet.text := by decide +kernel
  simp only [disputed, List.pairwise_cons, List.mem_cons, List.not_mem_nil, or_false,
    Op.addsTailnet]
  simp [hne.symm]

/-- The account that shares the key sees its own tailnet's event, and a third account does not. -/
theorem disputed_events_seen : ∃ (r : Store.Run Env.plain) (e : Event), r.Distinct ∧
    (r.state 4).events[0]? = some e ∧ e.identityOpen First.guestTailnet.text ∧
    (r.state 4).Visible First.guest 0 ∧
    ¬ (r.state 4).Visible ⟨"another account", .member, true⟩ 0 := by
  have hrun : (replay Env.plain First.clock disputed DB.empty).map (fun db =>
      ((db.tailnets.get? First.guestTailnet.text).map (·.ownerID),
        db.events.map fun e => e.identityOpen First.guestTailnet.text)) =
      .ok (some First.guestID.text, [true, false]) := by
    decide +kernel
  obtain ⟨db, hdb, hget⟩ := Except_map_eq_ok.mp hrun
  obtain ⟨hget, hevents⟩ := Prod.mk.inj hget
  obtain ⟨tn, htn, howner⟩ := Option.map_eq_some_iff.mp hget
  obtain ⟨r, hlen, hstate, hlabel⟩ := replay_run hdb
  have h4 : r.state 4 = db := (Except.ok.inj (hdb.symm.trans (hstate 4 (by decide)))).symm
  have hdistinct : r.Distinct := distinct_of_ops hlen hlabel disputed_pairwise
  -- No call of the run hands a tailnet over.
  have hkept : ∀ k < r.len, ¬ MovesOpen (r.state k) (r.label k).op := by
    rintro k hk ⟨actor, id, newOwner, tn, e, hop, -⟩
    have hk' : k < disputed.length := hlen ▸ hk
    rw [(hlabel k _ (List.getElem?_eq_getElem hk')).1] at hop
    have hlt : k < 4 := hk'
    interval_cases k <;> simp [disputed] at hop
  obtain ⟨e, rest, hlist, hopen, hrest⟩ := List.map_eq_cons_iff.mp hevents
  rw [← h4] at htn hlist
  have he : (r.state 4).events[0]? = some e := by rw [hlist, List.getElem?_cons_zero]
  have hseen := open_events_visible r hdistinct hkept 4 (by rw [hlen]; decide) _ tn 0 e htn he hopen
  refine ⟨r, e, hdistinct, he, hopen, ?_, ?_⟩
  · refine (hseen.1 First.guest rfl (by decide +kernel) howner.symm).mpr ?_
    have hlength := congrArg List.length hrest
    rw [List.length_map] at hlength
    rw [hlist, List.drop_one, List.tail_cons]
    exact lt_of_le_of_lt (List.countP_le_length.trans hlength.le) (by decide)
  · exact hseen.2 _ (by decide) (by rw [howner]; decide +kernel)

/-- The administrator gives the disputed tailnet to the other account, and later refreshes it. -/
def given : List Op := disputed ++ [
  .transferTailnet First.admin First.tailnet.text First.guestID.text,
  .refreshBegin First.tailnet.text,
  .refreshCommit First.tailnet.text ⟨"Thome", [], 1, 1⟩
    (some [⟨First.homeKey, .utc (5000 * second)⟩])]

/-- The new owner of a tailnet does not see its open event. -/
theorem given_event_unseen : ∃ (r : Store.Run Env.plain) (tn : Tailnet) (e : Event), r.Distinct ∧
    r.len = 7 ∧ (r.state 7).tailnets.get? First.tailnet.text = some tn ∧
    tn.ownerID = First.guest.id ∧ (r.state 7).events[1]? = some e ∧
    e.identityOpen First.tailnet.text ∧ ¬ (r.state 7).Visible First.guest 1 := by
  have hrun : (replay Env.plain First.clock given DB.empty).map (fun db =>
      ((db.tailnets.get? First.tailnet.text).map (·.ownerID),
        db.events[1]?.map fun e =>
          (e.identityOpen First.tailnet.text, e.listed First.guest))) =
      .ok (some First.guestID.text, some (true, false)) := by
    decide +kernel
  obtain ⟨db, hdb, hget⟩ := Except_map_eq_ok.mp hrun
  obtain ⟨hget, hevent⟩ := Prod.mk.inj hget
  obtain ⟨tn, htn, howner⟩ := Option.map_eq_some_iff.mp hget
  obtain ⟨e, he, hflags⟩ := Option.map_eq_some_iff.mp hevent
  obtain ⟨hopen, hlisted⟩ := Prod.mk.inj hflags
  obtain ⟨r, hlen, hstate, hlabel⟩ := replay_run hdb
  have h7 : r.state 7 = db := (Except.ok.inj (hdb.symm.trans (hstate 7 (by decide)))).symm
  rw [← h7] at htn he
  refine ⟨r, tn, e, distinct_of_ops hlen hlabel ?_, hlen, htn, howner, he, hopen, fun h => ?_⟩
  · refine List.pairwise_append.mpr ⟨disputed_pairwise, ?_, ?_⟩
    · simp [Op.addsTailnet]
    · simp [Op.addsTailnet]
  · have hshown := ((visible_iff he).mp h).2.1
    rw [hlisted] at hshown
    exact absurd hshown (by decide)

end Store.Run

end UniDERP
