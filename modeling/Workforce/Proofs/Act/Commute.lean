import Mathlib.Logic.Equiv.Basic
import Workforce.Proofs.Act.Outcome
import Workforce.Proofs.Pool.Accounts

/-!
# Acts on different shards

Two acts on different shards may be made in either order (`Pool.resembles_perform`).  Both
orders lead to the same shards and counters, and to the same workers, but for the numbers of
those that the acts have made: whoever is made first gets the smaller number
(`renumbering`).
-/

namespace Workforce

/-- Exchanges two neighbouring blocks of numbers, of which the first one begins at `base`. -/
def renumbering (base first second : Nat) : Equiv.Perm Nat where
  toFun number :=
    if number < base then number
    else if number < base + first then number + second
    else if number < base + first + second then number - first
    else number
  invFun number :=
    if number < base then number
    else if number < base + second then number + first
    else if number < base + first + second then number - second
    else number
  left_inv number := by
    simp only
    split_ifs <;> omega
  right_inv number := by
    simp only
    split_ifs <;> omega

namespace Pool

/-- Two pools that came from one are the same, but for the numbers of the workers that were
made since. -/
structure Resembles (start first second : Pool) : Prop where
  common : second.common = first.common
  shards : second.shards = first.shards
  live : second.live = first.live
  nextId : second.nextId = first.nextId
  register : second.workers.length = first.workers.length
  workers : ∃ numbers : Equiv.Perm Nat, (∀ ref < start.workers.length, numbers ref = ref) ∧
    ∀ ref < first.workers.length, numbers ref < second.workers.length ∧
      (second.worker (numbers ref)).nameless = (first.worker ref).nameless ∧
        (second.worker (numbers ref)).id = numbers (first.worker ref).id

/-- The counters of two shards are part of the sum over all shards. -/
theorem exists_total_live (pool : Pool) {first second : Nat} (hne : first ≠ second)
    (hfirst : first < pool.shards.length) (hsecond : second < pool.shards.length) :
    ∃ rest, total Shard.live pool.shards =
      rest + (pool.shard first).live + (pool.shard second).live := by
  let emptied := pool.setShard first { pool.shard first with live := 0 }
  have hwithin : second < emptied.shards.length := by rwa [length_shards_setShard]
  have hsame : emptied.shard second = pool.shard second := by
    rw [pool.shard_setShard first second hfirst, if_neg hne.symm]
  have hleft := total_setShard Shard.live hfirst { pool.shard first with live := 0 }
  have hright := total_setShard Shard.live hwithin { emptied.shard second with live := 0 }
  rw [hsame] at hright
  refine ⟨total Shard.live (emptied.setShard second { emptied.shard second with live := 0 }).shards,
    ?_⟩
  simp only [hsame, Nat.add_zero] at hleft hright ⊢
  rw [← hleft, ← hright, Nat.add_right_comm]

namespace Outcome

variable {first second : Nat} {start left right leftThen rightThen : Pool}

section Orders

/-! Acts on different shards: `left` and `right` after one of them, `leftThen` and `rightThen`
after both. -/

variable (hfirst : Outcome first start right left rightThen)
  (hsecond : Outcome second start left right leftThen) (hne : first ≠ second)

include hfirst hsecond hne

theorem shards_eq : rightThen.shards = leftThen.shards := by
  have hshard : ∀ position, rightThen.shard position = leftThen.shard position := by
    intro position
    by_cases hplace : position = first
    · subst hplace
      rw [hfirst.shard, hsecond.right.shards position hne]
    · rw [hfirst.right.shards position hplace]
      by_cases hother : position = second
      · subst hother
        exact hsecond.shard.symm
      · rw [hsecond.left.shards position hother, hsecond.right.shards position hother,
          hfirst.left.shards position hplace]
  have hcount : rightThen.shards.length = leftThen.shards.length := by
    rw [hfirst.right.count, hsecond.left.count, hsecond.right.count, hfirst.left.count]
  refine List.ext_getElem hcount fun position hright hleft => ?_
  rw [getElem_shards, getElem_shards, hshard]

/-- Each act changes the counter of the pool as it changes the one of its shard. -/
theorem live_eq
    (hlive : ∃ rest, start.live = rest + (start.shard first).live + (start.shard second).live) :
    rightThen.live = leftThen.live := by
  obtain ⟨rest, hrest⟩ := hlive
  have hsecondSame : left.shard second = start.shard second := hfirst.left.shards second hne.symm
  have hfirstSame : right.shard first = start.shard first := hsecond.left.shards first hne
  have hleft := hfirst.left.live (rest + (start.shard second).live) (by omega)
  have hright := hsecond.left.live (rest + (start.shard first).live) hrest
  have hleftThen := hsecond.right.live (rest + (left.shard first).live) (by rw [hsecondSame]; omega)
  have hrightThen := hfirst.right.live (rest + (right.shard second).live)
    (by rw [hfirstSame]; omega)
  rw [hleftThen, hrightThen, hfirst.shard, hsecond.shard]
  omega

/-- Whoever was there before is the same in both orders. -/
theorem veterans (ref : WorkerRef) (href : ref < start.workers.length) :
    (rightThen.worker ref).nameless = (leftThen.worker ref).nameless := by
  have hleft : ref < left.workers.length := Nat.lt_of_lt_of_le href hfirst.left.register
  have hright : ref < right.workers.length := Nat.lt_of_lt_of_le href hsecond.left.register
  by_cases hhome : (start.worker ref).home = first
  · rw [hfirst.workers ref ⟨href, hhome⟩, hsecond.right.workers ref hleft]
    rw [hfirst.left.homes ref href, hhome]
    exact hne
  · rw [hfirst.right.workers ref hright (by rwa [hsecond.left.homes ref href])]
    by_cases hother : (start.worker ref).home = second
    · exact (hsecond.workers ref ⟨href, hother⟩).symm
    · rw [hsecond.left.workers ref href hother,
        hsecond.right.workers ref hleft (by rwa [hfirst.left.homes ref href]),
        hfirst.left.workers ref href hhome]

/-- The new workers of the first shard. -/
theorem recruits_first (extra : Nat) (h : start.workers.length + extra < left.workers.length) :
    (rightThen.worker (right.workers.length + extra)).nameless =
      (leftThen.worker (start.workers.length + extra)).nameless := by
  have hhome : (left.worker (start.workers.length + extra)).home = first :=
    hfirst.left.recruits _ h (Nat.le_add_right _ _)
  rw [hfirst.recruits extra h, hsecond.right.workers _ h (by rwa [hhome])]

/-- The new workers of the second shard. -/
theorem recruits_second (extra : Nat) (h : start.workers.length + extra < right.workers.length) :
    (rightThen.worker (start.workers.length + extra)).nameless =
      (leftThen.worker (left.workers.length + extra)).nameless := by
  have hhome : (right.worker (start.workers.length + extra)).home = second :=
    hsecond.left.recruits _ h (Nat.le_add_right _ _)
  rw [hsecond.recruits extra h, hfirst.right.workers _ h (by rw [hhome]; exact hne.symm)]

theorem resembles (hnumbered : start.Numbered)
    (hlive : ∃ rest, start.live = rest + (start.shard first).live + (start.shard second).live) :
    Resembles start leftThen rightThen := by
  have hregister : rightThen.workers.length = leftThen.workers.length := by
    have hleft := hfirst.hired
    have hright := hsecond.hired
    omega
  have hnumberedLeft := hsecond.right.numbered (hfirst.left.numbered hnumbered)
  have hnumberedRight := hfirst.right.numbered (hsecond.left.numbered hnumbered)
  refine ⟨?_, hfirst.shards_eq hsecond hne, hfirst.live_eq hsecond hne hlive, ?_, hregister, ?_⟩
  · rw [hfirst.right.common, hsecond.left.common, hsecond.right.common, hfirst.left.common]
  · rw [hnumberedRight.issued, hnumberedLeft.issued, hregister]
  -- The new workers of either shard are a block of the register.
  · obtain ⟨hiredLeft, hleft⟩ := Nat.exists_eq_add_of_le hfirst.left.register
    obtain ⟨hiredRight, hright⟩ := Nat.exists_eq_add_of_le hsecond.left.register
    have hall : leftThen.workers.length = start.workers.length + hiredLeft + hiredRight := by
      have htogether := hsecond.hired
      omega
    refine ⟨renumbering start.workers.length hiredLeft hiredRight, fun ref href => ?_,
      fun ref href => ?_⟩
    · exact if_pos href
    have hbound : renumbering start.workers.length hiredLeft hiredRight ref <
        rightThen.workers.length := by
      simp only [renumbering, Equiv.coe_fn_mk]
      split_ifs <;> omega
    refine ⟨hbound, ?_, ?_⟩
    · simp only [renumbering, Equiv.coe_fn_mk]
      split_ifs with hold hnew hnewer
      · exact hfirst.veterans hsecond hne ref hold
      · obtain ⟨extra, rfl⟩ := Nat.exists_eq_add_of_le (Nat.le_of_not_lt hold)
        have hsame := hfirst.recruits_first hsecond hne extra (by omega)
        rwa [hright, Nat.add_right_comm] at hsame
      · obtain ⟨extra, rfl⟩ := Nat.exists_eq_add_of_le (Nat.le_of_not_lt hnew)
        have hsame := hfirst.recruits_second hsecond hne extra (by omega)
        have hback : start.workers.length + hiredLeft + extra - hiredLeft =
            start.workers.length + extra := by omega
        rwa [hback, ← hleft]
      · omega
    · rw [hnumberedRight.ids _ hbound, hnumberedLeft.ids ref href]

end Orders

end Outcome

/-- Acts that belong to different shards may be made in either order. -/
theorem resembles_perform {pool : Pool} {first second : Nat} {act other : Act}
    (htenanted : ∀ position, pool.Tenanted position) (hnumbered : pool.Numbered)
    (hlive : pool.live = total Shard.live pool.shards) (hne : first ≠ second)
    (hfirst : pool.Belongs first act) (hsecond : pool.Belongs second other) :
    Resembles pool ((pool.perform first act).perform second other)
      ((pool.perform second other).perform first act) := by
  -- Each act is made twice: at once, and after the other one.
  have hleft := (Parallel.refl hfirst.1).perform (htenanted first) hfirst.2
  have hright := (Parallel.refl hsecond.1).perform (htenanted second) hsecond.2
  have hafterRight := (hright.left.parallel hright.untouched hfirst.1 hne).perform
    (htenanted first) hfirst.2
  have hafterLeft := (hleft.left.parallel hleft.untouched hsecond.1 hne.symm).perform
    (htenanted second) hsecond.2
  refine hafterRight.resembles hafterLeft hne hnumbered ?_
  rw [hlive]
  exact pool.exists_total_live hne hfirst.1 hsecond.1

end Pool

end Workforce
