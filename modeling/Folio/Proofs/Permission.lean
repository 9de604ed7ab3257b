import Folio.Pdf.Source
import Folio.Proofs.Document.Opening
import Mathlib

/-!
# Permission bits

The flags of a document are an integer of any sign and size, read in two's complement: bit `b` is
set if the integer, divided by `2 ^ b` and rounded down, is odd (`bitSet_iff_odd`). Signed and
unsigned readings of a word of 32 bits differ by a multiple of `2 ^ 32`, which no bit of a
permission can tell (`bitSet_add_mul_two_pow`).

A handle that its owner did not open is restricted by these flags (`Pdf.Handle.Restricted`), and
each permission is decided by its own bit alone (`Pdf.Handle.ensure_of_restricted`).
-/

namespace Folio

/-! ## Bits of an integer -/

section
variable {p q : ℤ} {b : ℕ}

theorem bitSet_eq_testBit (p : ℤ) (b : ℕ) : bitSet p b = p.testBit b := by
  cases p <;> rfl

/-- **A bit of an integer, by division.** The quotient is rounded down, also below zero. -/
theorem bitSet_iff_odd : bitSet p b = true ↔ Odd (p / 2 ^ b) := by
  have hpow : (0 : ℤ) < 2 ^ b := by positivity
  cases p with
  | ofNat n =>
    have hcast : Int.ofNat n / 2 ^ b = ((n / 2 ^ b : ℕ) : ℤ) := by simp
    rw [hcast, Int.odd_coe_nat, Nat.odd_iff, bitSet, Nat.testBit_eq_decide_div_mod_eq,
      decide_eq_true_iff]
  | negSucc n =>
    -- below zero the quotient is `-(n / 2 ^ b + 1)`, and the bits are those of `n`, turned over
    have hcast : Int.negSucc n / 2 ^ b = -(((n / 2 ^ b : ℕ) : ℤ) + 1) := by
      rw [Int.negSucc_ediv n hpow]
      norm_cast
    rw [hcast, odd_neg, ← Int.not_even_iff_odd, Int.even_add_one, not_not, Int.even_coe_nat,
      Nat.even_iff, bitSet, Nat.testBit_eq_decide_div_mod_eq, Bool.not_eq_true',
      decide_eq_false_iff_not]
    omega

/-- A multiple of `2 ^ w` changes no bit below `w`. -/
theorem bitSet_add_mul_two_pow {w : ℕ} (hb : b < w) (m : ℤ) :
    bitSet (p + m * 2 ^ w) b = bitSet p b := by
  obtain ⟨k, rfl⟩ := Nat.exists_eq_add_of_lt hb
  have hquotient : (p + m * 2 ^ (b + k + 1)) / 2 ^ b = p / 2 ^ b + 2 * (m * 2 ^ k) := by
    have hsplit : m * (2 : ℤ) ^ (b + k + 1) = 2 ^ b * (2 * (m * 2 ^ k)) := by ring
    rw [hsplit, Int.add_mul_ediv_left _ _ (by positivity)]
  rw [Bool.eq_iff_iff, bitSet_iff_odd, bitSet_iff_odd, hquotient, Int.odd_add]
  simp

theorem bitSet_land (p q : ℤ) (b : ℕ) : bitSet (p.land q) b = (bitSet p b && bitSet q b) := by
  simp only [bitSet_eq_testBit, Int.testBit_land]

theorem bitSet_xor (p q : ℤ) (b : ℕ) : bitSet (p.xor q) b = (bitSet p b ^^ bitSet q b) := by
  simp only [bitSet_eq_testBit, Int.testBit_lxor]

theorem bitSet_two_pow (k b : ℕ) : bitSet (2 ^ k) b = decide (k = b) := by
  have hcast : (2 : ℤ) ^ k = Int.ofNat (2 ^ k) := by simp
  rw [hcast, bitSet, Nat.testBit_two_pow]

/-- A bit is set if the integer has something in common with the power of two of that bit. -/
theorem bitSet_iff_land_ne_zero : bitSet p b = true ↔ p.land (2 ^ b) ≠ 0 := by
  constructor
  · intro hset hzero
    have hbit := bitSet_land p (2 ^ b) b
    rw [hzero, hset, bitSet_two_pow, decide_eq_true rfl, Bool.true_and] at hbit
    exact absurd hbit (by simp [bitSet])
  · intro hne
    by_contra hclear
    refine hne ?_
    have hcast : (2 : ℤ) ^ b = Int.ofNat (2 ^ b) := by simp
    cases p with
    | ofNat n =>
      rw [hcast]
      simpa [Int.land, Nat.and_two_pow, bitSet] using hclear
    | negSucc n =>
      have hclear : n.testBit b = true := by simpa [bitSet] using hclear
      have hnone : Nat.ldiff (2 ^ b) n = 0 := Nat.eq_of_testBit_eq fun i => by
        rw [Nat.testBit_ldiff, Nat.testBit_two_pow]
        by_cases hi : b = i
        · simp [← hi, hclear]
        · simp [hi]
      rw [hcast]
      exact congrArg Int.ofNat hnone

end

/-! ## Masks -/

namespace Permission

theorem mask_eq (permission : Permission) : permission.mask = 2 ^ permission.bit :=
  Nat.one_shiftLeft _

/-- The bit of a permission is the one that its mask has. -/
theorem bit_eq_of_mask {permission : Permission} {b : ℕ} (h : permission.mask = 2 ^ b) :
    permission.bit = b :=
  Nat.pow_right_injective (Nat.le_refl 2) (permission.mask_eq.symm.trans h)

/-- The permissions have their bits in the lower word of 32 bits. -/
theorem bit_lt (permission : Permission) : permission.bit < 32 := by
  cases permission <;> decide

/-- Flags grant a permission if they have something in common with its mask. -/
theorem grantedBy_iff_land_ne_zero {flags : ℤ} {permission : Permission} :
    permission.grantedBy flags = true ↔ flags.land permission.mask ≠ 0 := by
  rw [grantedBy, bitSet_iff_land_ne_zero, mask_eq, Nat.cast_pow, Nat.cast_ofNat]

end Permission

/-! ## Restricted handles -/

namespace Pdf.Handle

/-- A handle on an encrypted document with given flags that its owner did not open. -/
structure Restricted (h : Handle) (flags : ℤ) : Prop where
  owner : h.owner = false
  encrypted : ∃ file encryption, h.file = some file ∧ file.encryption = some encryption ∧
    encryption.flags = flags

/-- A source that is opened with the user password only is restricted by the flags of its file. -/
theorem restricted_of_unlock {source : Source} {file : File} {encryption : Encryption} {h : Handle}
    (hfile : file.encryption = some encryption)
    (huser : encryption.access (source.password.getD "") = .user)
    (h_unlock : source.unlock file = .ok h) : h.Restricted encryption.flags := by
  rw [Source.unlock, hfile] at h_unlock
  simp only [huser] at h_unlock
  cases h_unlock
  exact ⟨rfl, file, encryption, rfl, hfile, rfl⟩

section
variable {h : Handle} {p : ℤ}

/-- What a restricted handle is asked for is decided by the flags. -/
theorem Restricted.ensure_eq (hp : h.Restricted p) (permission : Permission) :
    h.ensure permission =
      if permission.grantedBy p then .ok () else .error (.permissionDenied h.name permission) := by
  obtain ⟨howner, file, encryption, hfile, hencryption, rfl⟩ := hp
  simp [ensure, hfile, hencryption, howner]

theorem Restricted.ensure_eq_ok (hp : h.Restricted p) {permission : Permission} :
    h.ensure permission = .ok () ↔ bitSet p permission.bit = true := by
  rw [hp.ensure_eq, Permission.grantedBy]
  split <;> simp_all

/-- How a handle restricted by `p` decides on a permission whose mask is `2 ^ b`. -/
structure DecidesByBit (h : Handle) (p : ℤ) (permission : Permission) (b : ℕ) : Prop where
  granted : h.ensure permission = .ok () ↔ Odd ⌊(p : ℚ) / 2 ^ b⌋
  refused : ¬ Odd ⌊(p : ℚ) / 2 ^ b⌋ →
    h.ensure permission = .error (.permissionDenied h.name permission)
  /-- A multiple of `2 ^ 32` makes no difference, -/
  word : ∀ (m : ℤ) (h' : Handle), h'.Restricted (p + m * 2 ^ 32) →
    (h'.ensure permission = .ok () ↔ h.ensure permission = .ok ())
  /-- and neither does another bit. -/
  other : ∀ (k : ℕ) (h' : Handle), k ≠ b → h'.Restricted (p.xor (2 ^ k)) →
    (h'.ensure permission = .ok () ↔ h.ensure permission = .ok ())

theorem Restricted.decidesByBit (hp : h.Restricted p) (permission : Permission) :
    h.DecidesByBit p permission permission.bit := by
  have hfloor : ⌊(p : ℚ) / 2 ^ permission.bit⌋ = p / 2 ^ permission.bit := by
    have h := Rat.floor_intCast_div_natCast p (2 ^ permission.bit)
    push_cast at h
    exact h
  constructor
  · rw [hp.ensure_eq_ok, bitSet_iff_odd, hfloor]
  · intro heven
    rw [hfloor, ← bitSet_iff_odd] at heven
    rw [hp.ensure_eq, Permission.grantedBy, if_neg heven]
  · intro m h' hp'
    rw [hp'.ensure_eq_ok, hp.ensure_eq_ok, bitSet_add_mul_two_pow permission.bit_lt]
  · intro k h' hk hp'
    rw [hp'.ensure_eq_ok, hp.ensure_eq_ok, bitSet_xor, bitSet_two_pow, decide_eq_false hk,
      Bool.xor_false]

/-- **Each permission is decided by its own bit.** A handle restricted by `p` grants the permission
with mask `2 ^ b` if the floor of `p / 2 ^ b` is odd, and refuses it in its own name otherwise. The
bits that two flags have in common grant just the permissions that both of them grant. -/
theorem ensure_of_restricted (hp : h.Restricted p) :
    (∀ (permission : Permission) (b : ℕ), permission.mask = 2 ^ b →
      h.DecidesByBit p permission b) ∧
    ∀ (q : ℤ) (h₁ h₂ : Handle), h₁.Restricted q → h₂.Restricted (p.land q) →
      ∀ permissions : Set Permission,
        (∀ permission ∈ permissions, h₂.ensure permission = .ok ()) ↔
          (∀ permission ∈ permissions, h.ensure permission = .ok ()) ∧
            ∀ permission ∈ permissions, h₁.ensure permission = .ok () := by
  constructor
  · intro permission b hmask
    obtain rfl := Permission.bit_eq_of_mask hmask
    exact hp.decidesByBit permission
  · intro q h₁ h₂ hq hland permissions
    simp only [hp.ensure_eq_ok, hq.ensure_eq_ok, hland.ensure_eq_ok, bitSet_land, Bool.and_eq_true]
    exact forall₂_and

end

/-- A book that may be printed only, its flags once below zero and once read without a sign. -/
theorem ensure_of_restricted_printing :
    let file (flags : ℤ) : File :=
      ⟨"%PDF-1.6", [], ⟨[], none, none⟩, some ⟨"reader", "author", flags⟩, false⟩
    let source : Source := .of (.ofText "book.pdf") (some "reader") none
    let h (flags : ℤ) : Handle := ⟨"book.pdf", false, some (file flags), none⟩
    source.unlock (file (-4092)) = .ok (h (-4092)) ∧
      source.unlock (file 4294963204) = .ok (h 4294963204) ∧
      (h (-4092)).ensure .print = .ok () ∧ (h 4294963204).ensure .print = .ok () ∧
      (h (-4092)).ensure .modify = .error (.permissionDenied "book.pdf" .modify) := by
  intro file source h
  have hopen (flags : ℤ) : source.unlock (file flags) = .ok (h flags) := rfl
  have hp (flags : ℤ) : (h flags).Restricted flags :=
    restricted_of_unlock rfl rfl (hopen flags)
  have hfloor (b : ℕ) : ⌊((-4092 : ℤ) : ℚ) / 2 ^ b⌋ = -4092 / 2 ^ b := by
    have h := Rat.floor_intCast_div_natCast (-4092) (2 ^ b)
    push_cast at h ⊢
    exact h
  have hprint := (ensure_of_restricted (hp (-4092))).1 .print 2 (by decide)
  have hmodify := (ensure_of_restricted (hp (-4092))).1 .modify 3 (by decide)
  have hgranted := hprint.granted.2 (by rw [hfloor]; decide)
  exact ⟨hopen _, hopen _, hgranted, (hprint.word 1 _ (hp 4294963204)).2 hgranted,
    hmodify.refused (by rw [hfloor]; decide)⟩

end Pdf.Handle

end Folio
