import Mathlib.Algebra.BigOperators.Group.List.Basic
import Mathlib.Data.Rat.Cast.Order
import ChronoSynth.Lib.Table

/-!
# Accounts and their journal

A journal is a list of rows, each with an account number and a signed amount in minor units; `net`
is what it says about one account. `Balanced` is the agreement of a table of accounts with its
journal: the balance of every account, in minor units, is its net, and it is not negative.

The two rules are those of bookkeeping: an account is opened with nothing in it (`Balanced.opened`),
and an account is changed together with rows that net to the change (`Balanced.posted`).
-/

namespace ChronoSynth

namespace Ledger

variable {α β : Type*} {key : α → ℕ} {amount : α → ℤ} {rows new : List α} {k : ℕ}

/-- What the journal says about the account numbered `k`. -/
def net (key : α → ℕ) (amount : α → ℤ) (rows : List α) (k : ℕ) : ℤ :=
  ((rows.filter fun x => key x = k).map amount).sum

@[simp] theorem net_append :
    net key amount (rows ++ new) k = net key amount rows k + net key amount new k := by
  simp [net]

theorem net_eq_zero (h : ∀ x ∈ rows, key x ≠ k) : net key amount rows k = 0 := by
  have hnil : rows.filter (fun x => key x = k) = [] :=
    List.filter_eq_nil_iff.2 fun x hx => by simpa using h x hx
  rw [net, hnil]
  rfl

theorem net_eq_sum (h : ∀ x ∈ rows, key x = k) :
    net key amount rows k = (rows.map amount).sum := by
  rw [net, List.filter_eq_self.2 fun x hx => by simpa using h x hx]

variable {id : β → ℕ} {balance : β → ℚ} {scale : ℚ} {accounts : List β}

/-- The balances agree with the journal, and none is negative; `scale` is the number of minor units
in one. -/
def Balanced (id : β → ℕ) (balance : β → ℚ) (scale : ℚ) (key : α → ℕ) (amount : α → ℤ)
    (accounts : List β) (rows : List α) : Prop :=
  ∀ w ∈ accounts, balance w * scale = net key amount rows (id w) ∧ 0 ≤ balance w

/-- **Opening** an account. -/
theorem Balanced.opened (h : Balanced id balance scale key amount accounts rows) {a : β}
    (ha : balance a = 0) (hnew : ∀ x ∈ rows, key x ≠ id a) :
    Balanced id balance scale key amount (accounts ++ [a]) rows := by
  intro w hw
  rcases List.mem_append.1 hw with hw | hw
  · exact h w hw
  · obtain rfl := List.mem_singleton.1 hw
    simp [ha, net_eq_zero hnew]

/-- **Posting** to one account: its balance changes by what the new rows net to. -/
theorem Balanced.posted (h : Balanced id balance scale key amount accounts rows)
    {p : β → Prop} [DecidablePred p] {g : β → β} (hp : ∀ w ∈ accounts, p w ↔ id w = k)
    (hid : ∀ w, id (g w) = id w) (hkey : ∀ x ∈ new, key x = k)
    (hg : ∀ w ∈ accounts, id w = k → ∀ n : ℤ, balance w * scale = n → 0 ≤ balance w →
      balance (g w) * scale = (n + (new.map amount).sum : ℤ) ∧ 0 ≤ balance (g w)) :
    Balanced id balance scale key amount (Table.update p g accounts) (rows ++ new) := by
  intro w' hw'
  obtain ⟨w, hw, rfl⟩ := Table.mem_update.1 hw'
  obtain ⟨hbal, hpos⟩ := h w hw
  split_ifs with hpw
  · have hk := (hp w hw).1 hpw
    obtain ⟨hbal', hpos'⟩ := hg w hw hk _ hbal hpos
    refine ⟨hbal'.trans ?_, hpos'⟩
    rw [hid, net_append, net_eq_sum (fun x hx => (hkey x hx).trans hk.symm)]
  · have hk : id w ≠ k := fun hk => hpw ((hp w hw).2 hk)
    refine ⟨?_, hpos⟩
    rw [net_append, net_eq_zero (fun x hx he => hk (he.symm.trans (hkey x hx))), add_zero, hbal]

end Ledger

end ChronoSynth
