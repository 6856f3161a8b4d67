import Mathlib.Tactic

namespace UniDERP

/-- The value of a hexadecimal digit of either case. -/
def hexValue (c : Char) : Option ℕ :=
  if '0' ≤ c ∧ c ≤ '9' then some (c.toNat - 48)
  else if 'a' ≤ c ∧ c ≤ 'f' then some (c.toNat - 87)
  else if 'A' ≤ c ∧ c ≤ 'F' then some (c.toNat - 55)
  else none

def hexDigit (d : ℕ) : Char := Char.ofNat (if d < 10 then 48 + d else 87 + d)

/-- The number that digits stand for after those of `n`. -/
def readHex (n : ℕ) : List Char → Option ℕ
  | [] => some n
  | c :: cs => (hexValue c).bind fun d => readHex (16 * n + d) cs

/-- The last `w` digits of a number, in lower case. -/
def writeHex : ℕ → ℕ → List Char
  | 0, _ => []
  | w + 1, n => writeHex w (n / 16) ++ [hexDigit (n % 16)]

theorem hexValue_hexDigit {d : ℕ} (h : d < 16) : hexValue (hexDigit d) = some d := by
  revert d
  decide

theorem hexValue_lt {c : Char} {d : ℕ} (h : hexValue c = some d) : d < 16 := by
  unfold hexValue at h
  split_ifs at h with hdigit hlower hupper <;> cases h
  · have hle : c.toNat ≤ '9'.toNat := hdigit.2
    have hnine : '9'.toNat = 57 := rfl
    omega
  · have hle : c.toNat ≤ 'f'.toNat := hlower.2
    have hf : 'f'.toNat = 102 := rfl
    omega
  · have hle : c.toNat ≤ 'F'.toNat := hupper.2
    have hf : 'F'.toNat = 70 := rfl
    omega

theorem readHex_append (n : ℕ) (cs ds : List Char) :
    readHex n (cs ++ ds) = (readHex n cs).bind (readHex · ds) := by
  induction cs generalizing n with
  | nil => rfl
  | cons c cs ih =>
    rw [List.cons_append, readHex, readHex, Option.bind_assoc]
    congr 1
    funext d
    exact ih _

@[simp] theorem length_writeHex (w n : ℕ) : (writeHex w n).length = w := by
  induction w generalizing n with
  | zero => rfl
  | succ w ih => rw [writeHex, List.length_append, ih, List.length_singleton]

theorem readHex_writeHex (w n : ℕ) : readHex 0 (writeHex w n) = some (n % 16 ^ w) := by
  induction w generalizing n with
  | zero => rw [pow_zero, Nat.mod_one, writeHex, readHex]
  | succ w ih =>
    have hdigit : hexValue (hexDigit (n % 16)) = some (n % 16) :=
      hexValue_hexDigit (Nat.mod_lt _ (by norm_num))
    rw [writeHex, readHex_append, ih, Option.bind_some, readHex, hdigit, Option.bind_some, readHex,
      pow_succ', Nat.mod_mul, Nat.add_comm]

/-- A number that is read from `n` and some digits is below what so many digits reach. -/
theorem readHex_lt {n m : ℕ} {cs : List Char} (h : readHex n cs = some m) :
    m < (n + 1) * 16 ^ cs.length := by
  induction cs generalizing n with
  | nil =>
    cases h
    simp
  | cons c cs ih =>
    rw [readHex, Option.bind_eq_some_iff] at h
    obtain ⟨d, hd, h⟩ := h
    have hlt := hexValue_lt hd
    calc m < (16 * n + d + 1) * 16 ^ cs.length := ih h
      _ ≤ (16 * (n + 1)) * 16 ^ cs.length := by gcongr; omega
      _ = (n + 1) * 16 ^ (c :: cs).length := by
        rw [List.length_cons, pow_succ]
        ring

end UniDERP
