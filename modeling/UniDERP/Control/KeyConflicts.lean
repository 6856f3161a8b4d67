import UniDERP.Control.DeviceList
import UniDERP.Control.Projection

namespace UniDERP

def Holds (snapshots : Table String Snapshot) (t k : String) : Prop :=
  ∃ snap, snapshots.get? t = some snap ∧ k ∈ snap.keys.map (·.nodePublic)

def DB.Shows (db : DB) (id t : String) (k : DeviceKey) : Prop :=
  ∃ row p gp, db.policies.get? id = some row ∧ row.policyJSON = some p ∧ gp ∈ p.grants ∧
    gp.tailnetID = t ∧ k ∈ gp.keys

def Op.fetched : Op → Option (List IdentityKey)
  | .addTailnet _ _ _ _ _ keys => some keys
  | .replaceCommit _ _ _ _ keys => some keys
  | .refreshCommit _ _ fetched => fetched
  | _ => none

/-- A list that a transaction publishes was read from an answer of the API. -/
def Op.Read (C : DeviceCodec) (op : Op) : Prop :=
  ∀ keys, op.fetched = some keys → ∃ body now, C.parseIdentity body now = .ok keys

def Written (C : DeviceCodec) (text : String) : Prop :=
  ∃ s pub, C.unmarshalText s = some pub ∧ text = C.string pub

theorem mem_conflictingKeys_of_perm {snapshots : Table String Snapshot}
    {order : List (String × Snapshot)} (h : order.Perm snapshots.rows) {k : String} :
    k ∈ conflictingKeys order ↔ ∃ a b, a ≠ b ∧ Holds snapshots a k ∧ Holds snapshots b k := by
  have hmem : ∀ x : String × Snapshot, x ∈ order ↔ snapshots.get? x.1 = some x.2 := by
    intro x
    rw [h.mem_iff, Table.get?_eq_some_iff]
  rw [mem_conflictingKeys]
  constructor
  · rintro ⟨a, ha, b, hb, hne, hka, hkb⟩
    exact ⟨a.1, b.1, hne, ⟨a.2, (hmem a).mp ha, hka⟩, b.2, (hmem b).mp hb, hkb⟩
  · rintro ⟨a, b, hne, ⟨sa, ha, hka⟩, sb, hb, hkb⟩
    exact ⟨(a, sa), (hmem _).mpr ha, (b, sb), (hmem _).mpr hb, hne, hka, hkb⟩

theorem DB.Shows.alone {E : Env} {db : DB} (h : Store.Reachable E db) {id t : String}
    {k : DeviceKey} (hk : db.Shows id t k) :
    Holds db.snapshots t k.nodePublic ∧ ¬ Contested db t k.nodePublic := by
  obtain ⟨row, p, gp, hrow, hp, hgp, rfl, hk⟩ := hk
  obtain ⟨n, g, tn, snap, hadmitted, hshown⟩ := h.shown hrow hp hgp
  rw [hshown] at hk
  simp only [shownGrant, ownKeys, List.mem_map, List.mem_filter, decide_eq_true_eq] at hk
  obtain ⟨ik, ⟨hik, halone⟩, rfl⟩ := hk
  exact ⟨⟨snap, hadmitted.snapshotRow, List.mem_map_of_mem hik⟩, halone⟩

theorem DB.Shows.same_tailnet {E : Env} {db : DB} (h : Store.Reachable E db) {id id' t t' : String}
    {k k' : DeviceKey} (hk : db.Shows id t k) (hk' : db.Shows id' t' k')
    (he : k.nodePublic = k'.nodePublic) : t = t' := by
  by_contra hne
  obtain ⟨snap, hs, hmem⟩ := (hk'.alone h).1
  exact (hk.alone h).2 ⟨t', snap, fun h => hne h.symm, hs, he ▸ hmem⟩

theorem DeviceCodec.parseIdentity_written {C : DeviceCodec} {body : Option Bytes} {now : Int}
    {keys : List IdentityKey} (h : C.parseIdentity body now = .ok keys) :
    ∀ text ∈ keys.map (·.nodePublic), Written C text := by
  rw [parseIdentity, Except_bind_eq_ok] at h
  obtain ⟨devices, -, h⟩ := h
  obtain ⟨hstated, -, -, rfl⟩ := parseDevices_eq_ok.mp h
  intro text htext
  simp only [List.map_map, List.mem_map, List.mem_filter] at htext
  obtain ⟨d, ⟨hd, hadmits⟩, rfl⟩ := htext
  simp only [admits, Bool.and_eq_true, decide_eq_true_eq] at hadmits
  obtain ⟨pub, hpub, -⟩ := ((hstated d hd).2 hadmits.1.1).2.2.2.1
  exact ⟨d.nodeKey, pub, hpub, by simp [keyOf, hpub]⟩

section Step

variable {E : Env} {c : Clock} {db mid db' : DB} {op : Op} {reply : Reply} {S : String → Prop}

/-- A key of a device list was in it before, or in the list that is published. -/
theorem Effect.holds (h : Effect E c db op reply mid S) {t k : String}
    (hk : Holds mid.snapshots t k) :
    Holds db.snapshots t k ∨ ∃ keys, op.fetched = some keys ∧ k ∈ keys.map (·.nodePublic) := by
  have hinsert : ∀ {id : String} {s : Snapshot}, mid.snapshots = db.snapshots.insert id s →
      Holds db.snapshots t k ∨ k ∈ s.keys.map (·.nodePublic) := by
    intro id s hmid
    rw [hmid] at hk
    obtain ⟨snap, hs, hk⟩ := hk
    rcases Table.get?_insert_eq_some.mp hs with ⟨-, rfl⟩ | ⟨-, hs⟩
    · exact .inr hk
    · exact .inl ⟨snap, hs, hk⟩
  cases h
  case addTailnet => exact (hinsert rfl).imp_right fun h => ⟨_, rfl, h⟩
  case replaceCommit => exact (hinsert rfl).imp_right fun h => ⟨_, rfl, h⟩
  case refreshCommit => exact (hinsert rfl).imp_right fun h => ⟨_, rfl, h⟩
  case deleteCredential =>
    obtain ⟨snap', hs, hk⟩ := hk
    obtain ⟨snap, hsnap, rfl⟩ := Table.get?_modify_eq_some.mp hs
    split_ifs at hk with ht
    · simp at hk
    · exact .inl ⟨snap, hsnap, hk⟩
  case deleteTailnet =>
    obtain ⟨snap, hs, hk⟩ := hk
    exact .inl ⟨snap, (Table.get?_delete_eq_some.mp hs).1, hk⟩
  all_goals exact .inl hk

end Step

namespace Store.Run

variable {E : Env} {C : DeviceCodec}

theorem written (r : Store.Run E) {i : ℕ} (hi : i ≤ r.len)
    (hread : ∀ j < i, (r.label j).op.Read C) {t text : String}
    (h : Holds (r.state i).snapshots t text) : Written C text := by
  induction i generalizing t text with
  | zero =>
    have hstart : r.state 0 = DB.empty := r.start
    obtain ⟨snap, hs, -⟩ := h
    rw [hstart] at hs
    simp [DB.empty] at hs
  | succ i ih =>
    obtain ⟨mid, S, _, he, hr⟩ := exec_does (r.next i hi)
    rw [hr.frame] at h
    rcases he.holds h with hold | ⟨keys, hkeys, hmem⟩
    · exact ih (by omega) (fun j hj => hread j (by omega)) hold
    · obtain ⟨body, now, hparse⟩ := hread i (by omega) keys hkeys
      exact DeviceCodec.parseIdentity_written hparse text hmem

/-- A key that two tailnets claim is admitted nowhere: whatever the order of reading, exactly the
keys of two tailnets conflict, and no key is listed under two tailnets by the stored policies of
any nodes.  For lists read from the API this holds of the keys, not only of their texts. -/
theorem key_under_one_tailnet (E : Env) :
    (∀ (snapshots : Table String Snapshot) (order : List (String × Snapshot)),
      order.Perm snapshots.rows → ∀ k, k ∈ conflictingKeys order ↔
        ∃ a b, a ≠ b ∧ Holds snapshots a k ∧ Holds snapshots b k) ∧
    ∀ (r : Store.Run E) (i : ℕ), i ≤ r.len → ∀ id id' t t' k k',
      (r.state i).Shows id t k → (r.state i).Shows id' t' k' →
      (k.nodePublic = k'.nodePublic → t = t') ∧
      ∀ C : DeviceCodec, C.unmarshalText = E.unmarshalText →
        (∀ s pub, C.unmarshalText s = some pub → C.unmarshalText (C.string pub) = some pub) →
        (∀ j < i, (r.label j).op.Read C) →
        E.unmarshalText k.nodePublic = E.unmarshalText k'.nodePublic → t = t' := by
  refine ⟨fun snapshots order horder k => mem_conflictingKeys_of_perm horder,
    fun r i hi id id' t t' k k' hk hk' => ?_⟩
  have hreach : Store.Reachable E (r.state i) := r.reachable hi
  refine ⟨hk.same_tailnet hreach hk', fun C hC hround hread hsame => ?_⟩
  obtain ⟨s, pub, hpub, hw⟩ := r.written hi hread (hk.alone hreach).1
  obtain ⟨s', pub', hpub', hw'⟩ := r.written hi hread (hk'.alone hreach).1
  -- Both texts are the codec's, so equal keys have equal texts.
  rw [← hC, hw, hw', hround s pub hpub, hround s' pub' hpub', Option.some.injEq] at hsame
  exact hk.same_tailnet hreach hk' (by rw [hw, hw', hsame])

def device (key : String) : Device := ⟨key, some true, some false, some false, some "5000"⟩

/-- A codec that answers the lists of two tailnets, which share a key. -/
def firstCodec : DeviceCodec where
  decode body := some (body, true)
  unmarshal raw :=
    some (if raw = [1] then [device First.homeKey, device First.awayKey] else [device First.awayKey])
  unmarshalText := unmarshalNodePublic
  string := nodePublicString
  parseRFC3339 _ := some (.utc (5000 * second))

theorem firstCodec_round (s : String) (pub : ℕ) (h : firstCodec.unmarshalText s = some pub) :
    firstCodec.unmarshalText (firstCodec.string pub) = some pub := by
  have hunmarshal : firstCodec.unmarshalText = unmarshalNodePublic := rfl
  have hstring : firstCodec.string = nodePublicString := rfl
  rw [hunmarshal] at h ⊢
  rw [hstring, unmarshalNodePublic_string h]

def contested : List Op := First.enrolling ++ [
  .addTailnet First.admin "home" "Thome" First.tailnet []
    [⟨First.homeKey, .utc (5000 * second)⟩, ⟨First.awayKey, .utc (5000 * second)⟩],
  .addTailnet First.admin "away" "Taway" First.guestTailnet []
    [⟨First.awayKey, .utc (5000 * second)⟩],
  .requestGrant First.admin First.node.text First.tailnet.text 0 zeroTime First.grant]

theorem contested_read (op : Op) (h : op ∈ contested) : op.Read firstCodec := by
  intro keys hkeys
  have hparse : firstCodec.parseIdentity (some [1]) 0 =
        .ok [⟨First.homeKey, .utc (5000 * second)⟩, ⟨First.awayKey, .utc (5000 * second)⟩] ∧
      firstCodec.parseIdentity (some [2]) 0 = .ok [⟨First.awayKey, .utc (5000 * second)⟩] := by
    decide +kernel
  simp only [contested, First.enrolling, List.cons_append, List.nil_append, List.mem_cons,
    List.not_mem_nil, or_false] at h
  rcases h with rfl | rfl | rfl | rfl | rfl | rfl | rfl <;>
    simp only [Op.fetched, reduceCtorEq, Option.some.injEq] at hkeys
  · exact ⟨some [1], 0, hkeys ▸ hparse.1⟩
  · exact ⟨some [2], 0, hkeys ▸ hparse.2⟩

/-- Two tailnets share a key, which is admitted nowhere; the other key of the first one is admitted
under it alone. -/
theorem first_key_alone : ∃ (r : Store.Run Env.plain) (k : DeviceKey),
    First.awayKey ∈ conflictingKeys (r.state 7).snapshots.rows ∧
    (∀ id t k', (r.state 7).Shows id t k' → k'.nodePublic ≠ First.awayKey) ∧
    (r.state 7).Shows First.node.text First.tailnet.text k ∧
    ∀ id' t' k', (r.state 7).Shows id' t' k' →
      Env.plain.unmarshalText k.nodePublic = Env.plain.unmarshalText k'.nodePublic →
      First.tailnet.text = t' := by
  have hrun : (replay Env.plain First.clock contested DB.empty).map
      (fun db => ((db.policies.get? First.node.text).bind fun row =>
        row.policyJSON.map fun p => p.grants.map fun gp => (gp.tailnetID, gp.keys),
        (db.snapshots.get? First.tailnet.text).map fun snap => snap.keys.map (·.nodePublic),
        (db.snapshots.get? First.guestTailnet.text).map fun snap => snap.keys.map (·.nodePublic))) =
      .ok (some [(First.tailnet.text, [⟨First.homeKey, .utc (5000 * second)⟩])],
        some [First.homeKey, First.awayKey], some [First.awayKey]) := by
    decide +kernel
  obtain ⟨db, hdb, hget⟩ := Except_map_eq_ok.mp hrun
  simp only [Prod.mk.injEq, Option.bind_eq_some_iff, Option.map_eq_some_iff] at hget
  obtain ⟨⟨row, hrow, p, hp, hgrants⟩, ⟨home, hhome, hhomeKeys⟩, away, haway, hawayKeys⟩ := hget
  obtain ⟨r, hlen, hstate, hlabel⟩ := replay_run hdb
  obtain rfl : r.state 7 = db := (Except.ok.inj (hdb.symm.trans (hstate 7 (by decide)))).symm
  have hreach : Store.Reachable Env.plain (r.state 7) := r.reachable (hlen ▸ by decide)
  have hshows : (r.state 7).Shows First.node.text First.tailnet.text
      ⟨First.homeKey, .utc (5000 * second)⟩ := by
    obtain ⟨gp, hgp, hshown⟩ := List.map_eq_singleton_iff.mp hgrants
    obtain ⟨ht, hk⟩ := Prod.mk.inj hshown
    exact ⟨row, p, gp, hrow, hp, by rw [hgp]; exact List.mem_singleton_self gp, ht,
      by rw [hk]; exact List.mem_singleton_self _⟩
  -- Both tailnets list the key, so neither may show it.
  have hclaimed : First.awayKey ∈ conflictingKeys (r.state 7).snapshots.rows := by
    rw [(key_under_one_tailnet Env.plain).1 _ _ (List.Perm.refl _)]
    refine ⟨First.tailnet.text, First.guestTailnet.text, by decide, ⟨home, hhome, ?_⟩, away, haway, ?_⟩
    · simp [hhomeKeys]
    · simp [hawayKeys]
  refine ⟨r, _, hclaimed, fun id t k' hk' haway' => ?_, hshows, fun id' t' k' hk' hsame => ?_⟩
  · obtain ⟨a, b, hne, ha, hb⟩ := (mem_conflictingKeys_of_perm (List.Perm.refl _)).mp hclaimed
    rw [← haway'] at ha hb
    have hcontested := (hk'.alone hreach).2
    by_cases hat : a = t
    · obtain ⟨snap, hs, hmem⟩ := hb
      exact hcontested ⟨b, snap, fun h => hne (hat.trans h.symm), hs, hmem⟩
    · obtain ⟨snap, hs, hmem⟩ := ha
      exact hcontested ⟨a, snap, hat, hs, hmem⟩
  · refine ((key_under_one_tailnet Env.plain).2 r 7 (hlen ▸ by decide) _ _ _ _ _ _ hshows hk').2
      firstCodec rfl firstCodec_round (fun j hj => ?_) hsame
    have hj' : j < contested.length := hj
    have hop := List.getElem?_eq_getElem hj'
    rw [(hlabel j _ hop).1]
    exact contested_read _ (List.mem_of_getElem? hop)

end Store.Run

end UniDERP
