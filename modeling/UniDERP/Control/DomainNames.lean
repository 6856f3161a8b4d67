import Mathlib
import UniDERP.Library.Text
import UniDERP.Control.Domains

namespace UniDERP

/-- What `normalizeNodeDomain` calls outside the repository: `unicode.ToLower`, which changes the
letters from `A` to `Z` and no other ASCII character and no white space, and `netip.ParseAddr`. -/
structure NameRules where
  lower : Char → Char
  ascii : ∀ c, c.toNat < 128 → lower c = c.toLower
  space : ∀ c, isSpace c → lower c = c
  parseAddr : Text → Bool

def Rune.isSpace : Rune → Bool
  | .char c => UniDERP.isSpace c
  | .bad _ => false

def Rune.dot : Rune := .char '.'

def Rune.hyphen : Rune := .char '-'

def Rune.inLabel : Rune → Bool
  | .char c => (('a' ≤ c && c ≤ 'z') || ('0' ≤ c && c ≤ '9')) || c = '-'
  | .bad _ => false

def validLabel (label : Text) : Bool :=
  !(label.len = 0 || 63 < label.len || label.head? = some .hyphen ||
    label.getLast? = some .hyphen) && label.all Rune.inLabel

namespace NameRules

/-- The lower case of a rune; a bad byte becomes the replacement character. -/
def lowerRune (R : NameRules) : Rune → Rune
  | .char c => .char (R.lower c)
  | .bad _ => .char '�'

def folded (R : NameRules) (domain : Text) : Text :=
  (trimSuffix .dot (trim Rune.isSpace domain)).map R.lowerRune

def wellFormed (R : NameRules) (domain : Text) : Bool :=
  !(domain.len = 0 || 253 < domain.len || !(.dot ∈ domain : Bool)) && !R.parseAddr domain &&
    (domain.splitOn .dot).all validLabel

def normalizeNodeDomain (R : NameRules) (domain : Text) : Option Text :=
  if R.wellFormed (R.folded domain) then some (R.folded domain) else none

def normalize (R : NameRules) (domain : String) : Option String :=
  (R.normalizeNodeDomain (.ofString domain)).map Text.toString

end NameRules

def Env.naming (E : Env) (R : NameRules) : Env := { E with normalizeNodeDomain := R.normalize }

theorem Env.naming_normalize (E : Env) (R : NameRules) :
    (E.naming R).normalizeNodeDomain = R.normalize := by
  simp only [Env.naming]

/-- A label of a DNS name: 1 to 63 lower-case letters, digits and inner hyphens. -/
structure DNSLabel (label : Text) : Prop where
  nonempty : label ≠ []
  short : label.length ≤ 63
  ascii : ∀ r ∈ label, ∃ c, r = .char c ∧ (c.isLower ∨ c.isDigit ∨ c = '-')
  first : label.head? ≠ some .hyphen
  last : label.getLast? ≠ some .hyphen

/-- A lower-case DNS name of at least two labels that is no address. -/
structure DNSName (R : NameRules) (name : Text) : Prop where
  labels : ∃ labels : List Text, name = [Rune.dot].intercalate labels ∧ 2 ≤ labels.length ∧
    ∀ label ∈ labels, DNSLabel label
  short : name.len ≤ 253
  no_address : R.parseAddr name = false

theorem Text.length_le_len (s : Text) : s.length ≤ s.len := by
  induction s with
  | nil => simp [Text.len]
  | cons r s ih =>
    have hr : 0 < r.size := by cases r <;> simp [Rune.size, Char.utf8Size_pos]
    simp only [Text.len, List.map_cons, List.sum_cons, List.length_cons] at ih ⊢
    omega

theorem DNSLabel.of_valid {label : Text} (h : validLabel label) : DNSLabel label := by
  simp only [validLabel, Bool.and_eq_true, Bool.not_eq_true', Bool.or_eq_false_iff,
    decide_eq_false_iff_not, List.all_eq_true] at h
  obtain ⟨⟨⟨⟨hpos, hshort⟩, hfirst⟩, hlast⟩, hall⟩ := h
  refine ⟨fun hnil => hpos (by simp [hnil, Text.len]), ?_, fun r hr => ?_, hfirst, hlast⟩
  · have := label.length_le_len
    omega
  · cases r with
    | bad b => exact absurd (hall _ hr) (by simp [Rune.inLabel])
    | char c =>
      have hc := hall _ hr
      simp only [Rune.inLabel, Bool.or_eq_true, Bool.and_eq_true, decide_eq_true_eq] at hc
      refine ⟨c, rfl, ?_⟩
      simp only [Char.isLower, Char.isDigit, Bool.and_eq_true, decide_eq_true_eq]
      exact or_assoc.mp hc

section WellFormed

variable {R : NameRules} {d : Text} {r : Rune}

theorem NameRules.wellFormed_iff : R.wellFormed d ↔ d.len ≠ 0 ∧ d.len ≤ 253 ∧ .dot ∈ d ∧
    R.parseAddr d = false ∧ ∀ label ∈ d.splitOn .dot, validLabel label := by
  simp [NameRules.wellFormed, and_assoc]

theorem DNSName.of_wellFormed (h : R.wellFormed d) : DNSName R d := by
  obtain ⟨-, hlen, hdot, haddr, hlabels⟩ := NameRules.wellFormed_iff.mp h
  exact ⟨⟨d.splitOn .dot, (List.intercalate_splitOn _).symm, two_le_length_splitOn hdot,
    fun label hl => .of_valid (hlabels label hl)⟩, hlen, haddr⟩

theorem validLabel_nil : validLabel [] = false := rfl

theorem validLabel_inLabel {label : Text} (h : validLabel label) (hr : r ∈ label) :
    r.inLabel = true := by
  simp only [validLabel, Bool.and_eq_true, List.all_eq_true] at h
  exact h.2 r hr

theorem NameRules.wellFormed_rune (h : R.wellFormed d) (hr : r ∈ d) (hdot : r ≠ .dot) :
    r.inLabel = true := by
  obtain ⟨-, -, -, -, hlabels⟩ := NameRules.wellFormed_iff.mp h
  obtain ⟨label, hl, hmem⟩ := mem_piece_of_mem hr hdot
  exact validLabel_inLabel (hlabels label hl) hmem

theorem NameRules.wellFormed_head (h : R.wellFormed d) (hr : d.head? = some r) :
    r.inLabel = true := by
  obtain ⟨-, -, -, -, hlabels⟩ := NameRules.wellFormed_iff.mp h
  obtain ⟨l, rfl⟩ := List.head?_eq_some_iff.mp hr
  apply R.wellFormed_rune h (by simp)
  rintro rfl
  exact absurd (hlabels [] nil_mem_splitOn_cons) (by simp [validLabel_nil])

theorem NameRules.wellFormed_last (h : R.wellFormed d) (hr : d.getLast? = some r) :
    r.inLabel = true := by
  obtain ⟨-, -, -, -, hlabels⟩ := NameRules.wellFormed_iff.mp h
  obtain ⟨l, rfl⟩ := List.getLast?_eq_some_iff.mp hr
  apply R.wellFormed_rune h (by simp)
  rintro rfl
  exact absurd (hlabels [] nil_mem_splitOn_concat) (by simp [validLabel_nil])

end WellFormed

def Rune.fold : Rune → Rune
  | .char c => .char c.toLower
  | .bad b => .bad b

theorem toLower_of_not_ascii {c : Char} (h : ¬ c.toNat < 128) : c.toLower = c := by
  unfold Char.toLower
  split_ifs with hc
  · have hz : c.toNat ≤ 90 := by simpa [UInt32.le_iff_toNat_le, ← Char.toNat_val] using hc.2
    omega
  · rfl

section Lower

variable {R : NameRules} {r : Rune} {s t : Text}

theorem Rune.isSpace_fold (r : Rune) : r.fold.isSpace = r.isSpace := by
  cases r with
  | bad b => rfl
  | char c =>
    by_cases hc : c.toNat < 128
    · revert hc
      apply ascii_cases (P := fun c => (Rune.char c).fold.isSpace = (Rune.char c).isSpace)
      decide
    · simp only [Rune.fold, toLower_of_not_ascii hc]

theorem Rune.fold_eq_dot (r : Rune) : r.fold = .dot ↔ r = .dot := by
  cases r with
  | bad b => simp [Rune.fold, Rune.dot]
  | char c =>
    by_cases hc : c.toNat < 128
    · revert hc
      apply ascii_cases (P := fun c => (Rune.char c).fold = .dot ↔ Rune.char c = .dot)
      decide
    · simp only [Rune.fold, toLower_of_not_ascii hc]

theorem toLower_toLower {c : Char} (hc : c.toNat < 128) :
    c.toLower.toNat < 128 ∧ c.toLower.toLower = c.toLower := by
  revert hc
  apply ascii_cases (P := fun c => c.toLower.toNat < 128 ∧ c.toLower.toLower = c.toLower)
  decide

theorem NameRules.lowerRune_fold (R : NameRules) (r : Rune) :
    R.lowerRune r.fold = R.lowerRune r := by
  cases r with
  | bad b => rfl
  | char c =>
    by_cases hc : c.toNat < 128
    · obtain ⟨hascii, htwice⟩ := toLower_toLower hc
      simp only [Rune.fold, NameRules.lowerRune, R.ascii _ hc, R.ascii _ hascii, htwice]
    · simp only [Rune.fold, toLower_of_not_ascii hc]

theorem NameRules.folded_fold (R : NameRules) (s : Text) :
    R.folded (s.map Rune.fold) = R.folded s := by
  unfold NameRules.folded
  rw [trim_map Rune.isSpace_fold, trimSuffix_map Rune.fold_eq_dot, List.map_map]
  congr 1
  exact funext R.lowerRune_fold

theorem Rune.inLabel_char (h : r.inLabel = true) :
    ∃ c : Char, r = .char c ∧ c.toNat < 128 ∧ c.toLower = c ∧ UniDERP.isSpace c = false := by
  cases r with
  | bad b => cases h
  | char c =>
    have hc : c.toNat < 128 := by
      simp only [Rune.inLabel, Bool.or_eq_true, Bool.and_eq_true, decide_eq_true_eq] at h
      rcases h with (⟨-, h⟩ | ⟨-, h⟩) | rfl
      · exact (show c.toNat ≤ 122 from h).trans_lt (by decide)
      · exact (show c.toNat ≤ 57 from h).trans_lt (by decide)
      · decide
    refine ⟨c, rfl, hc, ?_⟩
    revert h
    apply ascii_cases (P := fun c => (Rune.char c).inLabel = true →
      c.toLower = c ∧ UniDERP.isSpace c = false) _ hc
    decide

theorem NameRules.lowerRune_inLabel (R : NameRules) (h : r.inLabel = true) : R.lowerRune r = r := by
  obtain ⟨c, rfl, hascii, hlower, -⟩ := Rune.inLabel_char h
  simp only [NameRules.lowerRune, R.ascii c hascii, hlower]

theorem Rune.isSpace_of_inLabel (h : r.inLabel = true) : r.isSpace = false := by
  obtain ⟨c, rfl, -, -, hspace⟩ := Rune.inLabel_char h
  exact hspace

theorem NameRules.lowerRune_dot (R : NameRules) : R.lowerRune .dot = .dot := by
  have h : R.lower '.' = '.' := R.ascii '.' (by decide)
  simp only [Rune.dot, NameRules.lowerRune, h]

theorem NameRules.lowerRune_of_isSpace (R : NameRules) (h : r.isSpace = true) :
    R.lowerRune r = r := by
  cases r with
  | bad b => cases h
  | char c => simp only [NameRules.lowerRune, R.space c h]

theorem NameRules.folded_of_wellFormed {d : Text} (h : R.wellFormed d) : R.folded d = d := by
  have htrim : trim Rune.isSpace d = d := trim_eq_self
    (fun r hr => Rune.isSpace_of_inLabel (R.wellFormed_head h hr))
    (fun r hr => Rune.isSpace_of_inLabel (R.wellFormed_last h hr))
  have hlast : d.getLast? ≠ some .dot := by
    intro hd
    exact absurd (R.wellFormed_last h hd) (by decide)
  unfold NameRules.folded
  rw [htrim, trimSuffix_eq_self hlast]
  conv_rhs => rw [← List.map_id d]
  apply List.map_congr_left
  intro r hr
  by_cases hdot : r = .dot
  · rw [hdot, R.lowerRune_dot, id]
  · exact R.lowerRune_inLabel (R.wellFormed_rune h hr hdot)

/-- A trailing dot is lost if what is left is well formed. -/
theorem NameRules.folded_concat_dot (h : R.wellFormed (R.folded (s ++ [.dot]))) :
    R.folded (s ++ [.dot]) = R.folded s := by
  have hcut : R.folded (s ++ [.dot]) = (s.dropWhile Rune.isSpace).map R.lowerRune := by
    unfold NameRules.folded
    rw [trim_append_singleton (by decide), trimSuffix_append_singleton]
  rw [hcut] at h ⊢
  -- The last rune is in a label, so neither white space nor a dot is left to trim.
  have hlast : ∀ r, (s.dropWhile Rune.isSpace).getLast? = some r →
      (R.lowerRune r).inLabel = true := by
    intro r hr
    apply R.wellFormed_last h
    rw [List.getLast?_map, hr, Option.map_some]
  have htrim : trim Rune.isSpace s = s.dropWhile Rune.isSpace := by
    unfold trim
    rw [List.rdropWhile_eq_self_iff]
    intro hne hspace
    have hin := hlast _ (List.getLast?_eq_some_getLast hne)
    rw [R.lowerRune_of_isSpace hspace] at hin
    simp [Rune.isSpace_of_inLabel hin] at hspace
  have hdot : (s.dropWhile Rune.isSpace).getLast? ≠ some .dot := by
    intro hd
    have hin := hlast _ hd
    rw [R.lowerRune_dot] at hin
    exact absurd hin (by decide)
  unfold NameRules.folded
  rw [htrim, trimSuffix_eq_self hdot]

end Lower

def AsciiBlank (w : Text) : Prop := ∀ r ∈ w, ∃ c : Char, r = .char c ∧ c.toNat < 128 ∧ isSpace c

/-- The name with ASCII white space around it, and perhaps a dot after it. -/
structure Spells (s name : Text) : Prop where
  shape : ∃ w tail w', s = w ++ (name ++ tail) ++ w' ∧ AsciiBlank w ∧ AsciiBlank w' ∧
    (tail = [] ∨ tail = [.dot])

/-- The inputs differ only in the case of ASCII letters, in ASCII white space around them and in
one trailing dot. -/
def SameDomain (x y : Text) : Prop :=
  ∃ u v, Spells x u ∧ Spells y v ∧ u.map Rune.fold = v.map Rune.fold

section Spellings

variable {R : NameRules} {x y d e name : Text}

theorem AsciiBlank.isSpace {w : Text} (h : AsciiBlank w) : ∀ r ∈ w, r.isSpace = true := by
  intro r hr
  obtain ⟨c, rfl, -, hc⟩ := h r hr
  exact hc

theorem NameRules.normalizeNodeDomain_eq_some :
    R.normalizeNodeDomain x = some d ↔ R.wellFormed d ∧ R.folded x = d := by
  unfold NameRules.normalizeNodeDomain
  split_ifs with h
  · rw [Option.some.injEq]
    exact ⟨fun hd => ⟨hd ▸ h, hd⟩, fun hd => hd.2⟩
  · simp only [false_iff, not_and]
    exact fun hd hx => h (hx ▸ hd)

theorem Spells.folded (hs : Spells x name) (hx : R.normalizeNodeDomain x = some d) :
    R.folded name = d := by
  obtain ⟨w, tail, w', rfl, hw, hw', htail⟩ := hs.shape
  obtain ⟨hwell, hfold⟩ := NameRules.normalizeNodeDomain_eq_some.mp hx
  have hbare : R.folded (name ++ tail) = d := by
    rw [← hfold]
    unfold NameRules.folded
    rw [trim_surrounded hw.isSpace hw'.isSpace]
  rcases htail with rfl | rfl
  · rwa [List.append_nil] at hbare
  · rw [← R.folded_concat_dot (hbare ▸ hwell), hbare]

theorem SameDomain.normal_eq (h : SameDomain x y) (hx : R.normalizeNodeDomain x = some d)
    (hy : R.normalizeNodeDomain y = some e) : d = e := by
  obtain ⟨u, v, hu, hv, hfold⟩ := h
  rw [← hu.folded hx, ← hv.folded hy, ← R.folded_fold u, hfold, R.folded_fold]

theorem NameRules.normalizeNodeDomain_idem (h : R.normalizeNodeDomain x = some d) :
    R.normalizeNodeDomain d = some d := by
  obtain ⟨hwell, -⟩ := NameRules.normalizeNodeDomain_eq_some.mp h
  exact NameRules.normalizeNodeDomain_eq_some.mpr ⟨hwell, R.folded_of_wellFormed hwell⟩

end Spellings

section Strings

variable {R : NameRules} {x y d e : String}

theorem NameRules.normalize_eq_some (h : R.normalize x = some d) :
    R.normalizeNodeDomain (.ofString x) = some (.ofString d) := by
  obtain ⟨t, ht, rfl⟩ := Option.map_eq_some_iff.mp h
  obtain ⟨hwell, -⟩ := NameRules.normalizeNodeDomain_eq_some.mp ht
  rw [Text.ofString_toString, ht]
  intro r hr
  by_cases hdot : r = .dot
  · exact ⟨'.', hdot⟩
  · obtain ⟨c, hc, -⟩ := Rune.inLabel_char (R.wellFormed_rune hwell hr hdot)
    exact ⟨c, hc⟩

theorem NameRules.normalize_idem (h : R.normalize x = some d) : R.normalize d = some d := by
  have ht := R.normalizeNodeDomain_idem (R.normalize_eq_some h)
  rw [NameRules.normalize, ht, Option.map_some, Text.toString_ofString]

theorem SameDomain.normalize_eq (h : SameDomain (.ofString x) (.ofString y))
    (hx : R.normalize x = some d) (hy : R.normalize y = some e) : d = e := by
  have ht := h.normal_eq (R.normalize_eq_some hx) (R.normalize_eq_some hy)
  rw [← Text.toString_ofString d, ht, Text.toString_ofString]

end Strings

section Store

variable {E : Env} {R : NameRules} {db db' : DB} {a : Commit} {id : String} {n : Node}

def Normal (R : NameRules) (db : DB) : Prop :=
  ∀ id n, db.nodes.get? id = some n → R.normalize n.domain = some n.domain

theorem Step.created_normal (h : Step (E.naming R) db a db') (hc : a.op.creates id)
    (hn : db'.nodes.get? id = some n) : R.normalize n.domain = some n.domain := by
  obtain ⟨domain, hnormal⟩ := (Step.created h hc hn).normal
  rw [Env.naming_normalize] at hnormal
  exact R.normalize_idem hnormal

theorem Step.moved_normal {actor : Actor} {domain : String} {connected : Bool} {c : Clock}
    {reply : Reply}
    (h : Step (E.naming R) db ⟨.changeNodeDomain actor id domain connected, c, reply⟩ db')
    (hn : db'.nodes.get? id = some n) :
    db'.nodes = db.nodes ∨ R.normalize n.domain = some n.domain := by
  simp only [Step, exec, quiet_eq_ok, changeNodeDomain, Except_bind_eq_ok, orElse_eq_ok] at h
  obtain ⟨⟨normal, hnormal, n₀, -, -, -, h⟩, -⟩ := h
  split_ifs at h with hsame
  · left
    rw [Except_pure_eq_ok.mp h]
  · right
    simp only [Except_bind_eq_ok, Except_pure_eq_ok] at h
    obtain ⟨-, -, -, -, -, -, rfl⟩ := h
    rw [Table.get?_insert_self, Option.some.injEq] at hn
    subst hn
    rw [Env.naming_normalize] at hnormal
    exact R.normalize_idem hnormal

theorem Step.normal (h : Step (E.naming R) db a db') (hnormal : Normal R db) : Normal R db' := by
  intro id n hn
  rcases Step.origin h hn with hc | ⟨n₀, hn₀, hk⟩
  · exact Step.created_normal h hc hn
  · rcases hk.domain with hsame | ⟨⟨actor, domain, connected, hop⟩, -⟩
    · rw [hsame]
      exact hnormal id n₀ hn₀
    · obtain ⟨op, c, reply⟩ := a
      obtain rfl : op = _ := hop
      rcases Step.moved_normal h hn with hkept | hdone
      · exact hnormal id n (hkept ▸ hn)
      · exact hdone

theorem Store.Reachable.normal (h : Store.Reachable (E.naming R) db) : Normal R db := by
  apply UniDERP.Reachable.invariant h
  · rintro db rfl id n hn
    cases hn
  · intro db a db' _ hnormal hstep
    exact Step.normal hstep hnormal

end Store

def NameRules.plain : NameRules where
  lower := Char.toLower
  ascii _ _ := rfl
  space c h := by
    by_cases hc : c.toNat < 128
    · revert h
      apply ascii_cases (P := fun c => isSpace c = true → c.toLower = c) _ hc
      decide
    · exact toLower_of_not_ascii hc
  parseAddr _ := false

/-- What is accepted becomes a DNS name, which is accepted unchanged; so are the domains that the
store keeps, and a node's domain cannot be given to another node in any spelling. -/
theorem NameRules.domain_normal_form (R : NameRules) :
    (∀ s d, R.normalizeNodeDomain s = some d →
      DNSName R d ∧ R.normalizeNodeDomain d = some d) ∧
    (∀ x y d e, SameDomain x y → R.normalizeNodeDomain x = some d →
      R.normalizeNodeDomain y = some e → d = e) ∧
    ∀ (E : Env) db id n, Store.Reachable (E.naming R) db → db.nodes.get? id = some n →
      R.normalize n.domain = some n.domain ∧
      ∀ x y, SameDomain (.ofString x) (.ofString y) → R.normalize x = some n.domain →
        (∀ c actor name derpPort stunPort id' code r,
          createNode (E.naming R) c actor name y derpPort stunPort id' code db ≠ .ok r) ∧
        ∀ actor id' connected db', id' ≠ id →
          changeNodeDomain (E.naming R) actor id' y connected db ≠ .ok db' := by
  refine ⟨fun s d hs => ?_, fun x y d e h hx hy => h.normal_eq hx hy,
    fun E db id n hdb hn => ⟨hdb.normal id n hn, fun x y hsame hx => ⟨?_, ?_⟩⟩⟩
  · exact ⟨.of_wellFormed (NameRules.normalizeNodeDomain_eq_some.mp hs).1,
      R.normalizeNodeDomain_idem hs⟩
  · intro c actor name derpPort stunPort id' code r h
    simp only [createNode, Except_bind_eq_ok, require_eq_ok, orElse_eq_ok, exists_const,
      activeActor_eq_ok, requireOwner_eq_ok, Table.any_eq_false, decide_eq_false_iff_not] at h
    obtain ⟨-, -, normal, hnormal, -, -, region, -, ⟨-, hunique, -⟩, -⟩ := h
    rw [Env.naming_normalize] at hnormal
    exact hunique id n hn (hsame.normalize_eq hx hnormal)
  · intro actor id' connected db' hne h
    simp only [changeNodeDomain, Except_bind_eq_ok, orElse_eq_ok, ownedNode_eq_ok] at h
    obtain ⟨normal, hnormal, n', ⟨-, hn', -⟩, -, -, h⟩ := h
    rw [Env.naming_normalize] at hnormal
    have hdomain : n.domain = normal := hsame.normalize_eq hx hnormal
    -- Asking for the domain that the node has already passes every check of names.
    split_ifs at h with hkept
    · exact hne (hdb.apart.domains id' id n' n hn' hn (hkept.symm.trans hdomain.symm))
    · simp only [Except_bind_eq_ok, require_eq_ok, exists_const, Table.any_eq_false,
        decide_eq_false_iff_not] at h
      exact h.1 id n hn ⟨hdomain, hne.symm⟩

theorem NameRules.first_domain_taken :
    ∃ db n, Store.Reachable (Env.plain.naming .plain) db ∧
      db.nodes.get? First.node.text = some n ∧ n.domain = "relay.example" ∧
      ∀ c actor name derpPort stunPort id code r,
        createNode (Env.plain.naming .plain) c actor name " RELAY.example. " derpPort stunPort id
          code db ≠ .ok r := by
  have hrun : (replay (Env.plain.naming .plain) First.clock
      [.initializeAdmin "admin" "a long password" First.owner "hash",
        .createNode First.admin "relay" "Relay.Example" 443 3478 First.node First.code] DB.empty).map
      (fun db => (db.nodes.get? First.node.text).map Node.domain) =
        .ok (some "relay.example") := by
    decide +kernel
  obtain ⟨db, hdb, hnode⟩ := Except_map_eq_ok.mp hrun
  obtain ⟨n, hn, hdomain⟩ := Option.map_eq_some_iff.mp hnode
  have hreach : Store.Reachable (Env.plain.naming .plain) db := replay_reachable hdb (.start rfl)
  have hfirst : Spells (.ofString "Relay.Example") (.ofString "Relay.Example") :=
    ⟨[], [], [], by simp, by simp [AsciiBlank], by simp [AsciiBlank], .inl rfl⟩
  have hsecond : Spells (.ofString " RELAY.example. ") (.ofString "RELAY.example") :=
    ⟨[.char ' '], [.dot], [.char ' '], by decide +kernel, by simp [AsciiBlank, isSpace],
      by simp [AsciiBlank, isSpace], .inr rfl⟩
  have hsame : SameDomain (.ofString "Relay.Example") (.ofString " RELAY.example. ") :=
    ⟨_, _, hfirst, hsecond, by decide +kernel⟩
  obtain ⟨-, -, hstore⟩ := NameRules.domain_normal_form .plain
  obtain ⟨-, htaken⟩ := hstore Env.plain db First.node.text n hreach hn
  refine ⟨db, n, hreach, hn, hdomain, (htaken _ _ hsame ?_).1⟩
  rw [hdomain]
  decide +kernel

end UniDERP
