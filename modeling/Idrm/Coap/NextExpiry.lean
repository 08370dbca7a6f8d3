import Mathlib.Data.Int.GCD
import Mathlib.Tactic.Linarith
import Mathlib.Order.Bounds.Basic
import Idrm.Coap.BlockStore

/-!
# The next expiry of the block-wise store

`check_blockwise_timeout_ms` finds the earliest access to the nodes that stay, but takes the
time of that access for the time of its expiry. What it returns then lies in the past, and the
difference wraps.
-/

namespace Idrm.Coap

open Idrm.Lib List

variable {A : Type} {now : UInt32} {timeout : Int32} {nextTimeout : UInt32} {store : BlockStore A}

/-! ## The earliest access -/

/-- The minimum of a bound and some times. -/
structure Earliest (bound : UInt32) (times : List UInt32) (earliest : UInt32) : Prop where
  below : earliest ≤ bound
  least : ∀ time ∈ times, earliest ≤ time
  attained : earliest = bound ∨ earliest ∈ times

theorem Earliest.nil (bound : UInt32) : Earliest bound [] bound where
  below := UInt32.le_refl bound
  least := fun _ member => absurd member not_mem_nil
  attained := .inl rfl

theorem Earliest.single {bound time earliest : UInt32} (isMin : (time < bound ∧ earliest = time) ∨
    (bound ≤ time ∧ earliest = bound)) : Earliest bound [time] earliest := by
  rcases isMin with ⟨before, rfl⟩ | ⟨notBefore, rfl⟩
  · refine ⟨UInt32.le_of_lt before, ?_, .inr mem_cons_self⟩
    intro other member
    rw [mem_singleton.mp member]
    exact UInt32.le_refl earliest
  · refine ⟨UInt32.le_refl earliest, ?_, .inl rfl⟩
    intro other member
    rw [mem_singleton.mp member]
    exact notBefore

/-- The minimum of what comes first bounds what comes behind it. -/
theorem Earliest.append {bound middle earliest : UInt32} {front back : List UInt32}
    (first : Earliest bound front middle) (second : Earliest middle back earliest) :
    Earliest bound (front ++ back) earliest where
  below := UInt32.le_trans second.below first.below
  least := by
    intro time member
    rcases mem_append.mp member with inFront | inBack
    · exact UInt32.le_trans second.below (first.least time inFront)
    · exact second.least time inBack
  attained := by
    rcases second.attained with rfl | inBack
    · rcases first.attained with bounded | inFront
      · exact .inl bounded
      · exact .inr (mem_append_left back inFront)
    · exact .inr (mem_append_right front inBack)

/-- The unset value `-1` is the largest time, so it need not be told apart. -/
theorem earlier_isMin (nextTimeout access : UInt32) :
    Earliest nextTimeout [access]
      (if nextTimeout = -1 ∨ nextTimeout > access then access else nextTimeout) := by
  have top : access ≤ 4294967295 := UInt32.le_iff_toNat_le.mpr (by
    have bound := access.toNat_lt
    change access.toNat ≤ 4294967295
    omega)
  apply Earliest.single
  split
  · rename_i replaces
    rcases UInt32.lt_or_eq_of_le (show access ≤ nextTimeout by
      rcases replaces with unset | later
      · rw [unset]
        exact top
      · exact UInt32.le_of_lt later) with before | same
    · exact .inl ⟨before, rfl⟩
    · exact .inr ⟨by rw [same]; exact UInt32.le_refl nextTimeout, same⟩
  · rename_i stays
    exact .inr ⟨UInt32.not_lt.mp fun later => stays (.inr later), rfl⟩

/-- The nodes of all peers. -/
def nodesOf (store : BlockStore A) : List BlockNode := store.flatMap Prod.snd

theorem checkNodes_earliest (now : UInt32) (timeout : Int32) (nextTimeout : UInt32)
    (nodes : List BlockNode) :
    Earliest nextTimeout ((checkNodes now timeout nextTimeout nodes).2.map BlockNode.lastAccess)
    (checkNodes now timeout nextTimeout nodes).1 := by
  induction nodes generalizing nextTimeout with
  | nil => exact Earliest.nil nextTimeout
  | cons node rest ih =>
    rw [checkNodes]
    split
    · exact ih nextTimeout
    · exact (earlier_isMin nextTimeout node.lastAccess).append (ih _)

theorem nodesOf_keep (peer : A) (nodes : List BlockNode) (rest : BlockStore A) :
    nodesOf (if nodes = [] then rest else (peer, nodes) :: rest) = nodes ++ nodesOf rest := by
  split
  · rename_i empty
    rw [empty, nil_append]
  · exact flatMap_cons

theorem checkPeers_earliest (now : UInt32)
    (timeout : Int32) (nextTimeout : UInt32) (store : BlockStore A) : Earliest nextTimeout
      ((nodesOf (checkPeers now timeout nextTimeout store).2).map BlockNode.lastAccess)
    (checkPeers now timeout nextTimeout store).1 := by
  induction store generalizing nextTimeout with
  | nil => exact Earliest.nil nextTimeout
  | cons entry rest ih =>
    obtain ⟨peer, nodes⟩ := entry
    simp only [checkPeers, nodesOf_keep, map_append]
    exact (checkNodes_earliest now timeout nextTimeout nodes).append (ih _)

/-- The nodes that stay are those that are not expired. -/
theorem nodesOf_checked (now : UInt32) (timeout : Int32) (store : BlockStore A) :
    nodesOf (checkBlockwiseTimeoutMs now timeout store).2 =
      (nodesOf store).filter fun node => !node.expired now timeout := by
  rw [checkBlockwiseTimeoutMs_store]
  induction store with
  | nil => rfl
  | cons entry rest ih =>
    obtain ⟨peer, nodes⟩ := entry
    rw [pruned_cons]
    simp only [List.isEmpty_iff]
    rw [nodesOf_keep, ih, nodesOf, nodesOf, flatMap_cons, filter_append]

/-! ## What is returned, and what expires -/

/-- When a node expires, in milliseconds: at the first second at which it is released. -/
def BlockNode.expiresAt (timeout : Int32) (node : BlockNode) : Int :=
  (node.lastAccess.toNat + timeout.toInt + 1) * 1000

theorem expired_iff (node : BlockNode) :
    node.expired now timeout = true ↔ node.expiresAt timeout ≤ now.toNat * 1000 := by
  rw [BlockNode.expired, BlockNode.expiresAt, decide_eq_true_eq]
  omega

/-- What the caller takes the result for: the time until the first of the remaining nodes
expires, in milliseconds, and `0xFFFFFFFF` if none is left. -/
structure AnnouncesExpiry (now : UInt32) (timeout : Int32) (store : BlockStore A) : Prop where
  idle : (checkBlockwiseTimeoutMs now timeout store).1 = 0xFFFFFFFF ↔
    nodesOf (checkBlockwiseTimeoutMs now timeout store).2 = []
  next : nodesOf (checkBlockwiseTimeoutMs now timeout store).2 ≠ [] →
    0 < (checkBlockwiseTimeoutMs now timeout store).1.toNat ∧
    (checkBlockwiseTimeoutMs now timeout store).1.toNat ≤ (timeout.toInt + 1) * 1000 ∧
    IsLeast {time | ∃ node ∈ nodesOf (checkBlockwiseTimeoutMs now timeout store).2,
    time = node.expiresAt timeout}
    (now.toNat * 1000 + (checkBlockwiseTimeoutMs now timeout store).1.toNat)

/-- The first node to expire is the one accessed first. -/
theorem isLeast_expiresAt {nodes : List BlockNode} {oldest : BlockNode} (member : oldest ∈ nodes)
    (least : ∀ node ∈ nodes, oldest.lastAccess ≤ node.lastAccess) :
    IsLeast {time | ∃ node ∈ nodes, time = node.expiresAt timeout} (oldest.expiresAt timeout) := by
  constructor
  · exact ⟨oldest, member, rfl⟩
  · rintro time ⟨node, there, rfl⟩
    have earlier := UInt32.le_iff_toNat_le.mp (least node there)
    rw [BlockNode.expiresAt, BlockNode.expiresAt]
    omega

/-- The difference of two times in milliseconds, up to a multiple of the word size. -/
theorem wrapped_difference {access now : Nat} (accessBound : access < 2 ^ 32)
    (nowBound : now < 2 ^ 32) :
    ∃ wraps : Int, (((access + 2 ^ 32 - now) % 2 ^ 32 * 1000 % 2 ^ 32 : Nat) : Int) =
      (access - now) * 1000 + 2 ^ 32 * wraps := by
  have first := Nat.mod_add_div (access + 2 ^ 32 - now) (2 ^ 32)
  have second := Nat.mod_add_div ((access + 2 ^ 32 - now) % 2 ^ 32 * 1000) (2 ^ 32)
  generalize (access + 2 ^ 32 - now) % 2 ^ 32 = difference at first second
  generalize difference * 1000 % 2 ^ 32 = result at second
  refine ⟨1000 - 1000 * ((access + 2 ^ 32 - now) / 2 ^ 32 : Nat) -
    (difference * 1000 / 2 ^ 32 : Nat), ?_⟩
  generalize (access + 2 ^ 32 - now) / 2 ^ 32 = one at first
  generalize difference * 1000 / 2 ^ 32 = two at second
  have early : (difference : Int) + 2 ^ 32 * one = access + 2 ^ 32 - now := by omega
  have late : (result : Int) + 2 ^ 32 * two = difference * 1000 := by exact_mod_cast second
  linarith only [early, late]

/-- The result for an earliest access is right only where a multiple of the timeout wraps, too. -/
theorem result_iff {access now : Nat} {timeout : Int}
    (accessBound : access < 2 ^ 32) (nowBound : now < 2 ^ 32) (positive : 0 ≤ timeout)
    (bound : timeout < 2 ^ 31) (fresh : now < access + timeout + 1) {result : Nat}
    (returned : result = if access = 2 ^ 32 - 1 then
      2 ^ 32 - 1 else (access + 2 ^ 32 - now) % 2 ^ 32 * 1000 % 2 ^ 32) :
    (result ≠ 2 ^ 32 - 1 ∧ 0 < result ∧ result ≤ (timeout + 1) * 1000 ∧
      (now * 1000 + result : Int) = (access + timeout + 1) * 1000) ↔ (2 ^ 29 ∣ timeout + 1 ∧
      access ≤ now ∧ (access + timeout + 1) * 1000 < now * 1000 + 2 ^ 32) := by
  split at returned
  · rename_i last
    constructor
    · rintro ⟨different, -, -, -⟩
      exact absurd returned different
    · rintro ⟨divides, late, short⟩
      have least := Int.le_of_dvd (by omega) divides
      omega
  · obtain ⟨wraps, value⟩ := wrapped_difference accessBound nowBound
    rw [← returned] at value
    have small : result < 2 ^ 32 := by
      rw [returned]
      exact Nat.mod_lt _ (by decide)
    clear returned
    constructor
    · rintro ⟨-, -, most, exactly⟩
      have multiple : 125 * (timeout + 1) = 2 ^ 29 * wraps := by linarith only [value, exactly]
      have divides : 2 ^ 29 ∣ timeout + 1 :=
        Int.dvd_of_dvd_mul_right_of_gcd_one ⟨wraps, multiple⟩ (by decide)
      clear value multiple
      exact ⟨divides, by omega, by omega⟩
    · rintro ⟨⟨factor, multiple⟩, late, short⟩
      -- Both sides lie within one word of the present, and differ by a multiple of the word size.
      have apart : (result : Int) - ((access + timeout + 1) * 1000 - now * 1000) = 2 ^ 32 *
          (wraps - 125 * factor) := by
        rw [value, add_assoc, multiple]
        ring
      have exactly : (now * 1000 + result : Int) = (access + timeout + 1) * 1000 := by
        generalize wraps - 125 * factor = words at apart
        clear value multiple
        omega
      exact ⟨by omega, by omega, by omega, exactly⟩

/-- Where the result is right: every node is released, or the time until the first of the others
expires fits the word, and the timeout is one that wraps to nothing in milliseconds. -/
def TellsExpiry (now : UInt32) (timeout : Int32) (store : BlockStore A) : Prop :=
  (∀ node ∈ nodesOf store, node.expired now timeout = true) ∨
    2 ^ 29 ∣ timeout.toInt + 1 ∧ ∃ oldest ∈ nodesOf store, oldest.expired now timeout = false ∧
    (∀ node ∈ nodesOf store, node.expired now timeout = false →
    oldest.lastAccess ≤ node.lastAccess) ∧
    oldest.lastAccess ≤ now ∧ oldest.expiresAt timeout < now.toNat * 1000 + 2 ^ 32

theorem mem_checked {node : BlockNode} :
    node ∈ nodesOf (checkBlockwiseTimeoutMs now timeout store).2 ↔
      node ∈ nodesOf store ∧ node.expired now timeout = false := by
  rw [nodesOf_checked, mem_filter, Bool.not_eq_true']

/-- The result, where a node is left: that of the earliest access. -/
theorem checkBlockwiseTimeoutMs_earliest
      (left : nodesOf (checkBlockwiseTimeoutMs now timeout store).2 ≠ []) :
    ∃ oldest ∈ nodesOf (checkBlockwiseTimeoutMs now timeout store).2,
    (∀ node ∈ nodesOf (checkBlockwiseTimeoutMs now timeout store).2,
      oldest.lastAccess ≤ node.lastAccess) ∧ (checkBlockwiseTimeoutMs now timeout store).1.toNat =
      if oldest.lastAccess.toNat = 2 ^ 32 - 1 then 2 ^ 32 - 1
    else (oldest.lastAccess.toNat + 2 ^ 32 - now.toNat) % 2 ^ 32 * 1000 % 2 ^ 32 := by
  have earliest := checkPeers_earliest now timeout (-1) store
  have result : (checkBlockwiseTimeoutMs now timeout store).1 = if (checkPeers now timeout
      (-1) store).1 = -1 then -1 else ((checkPeers now timeout (-1) store).1 - now) * 1000 :=
    rfl
  change nodesOf (checkPeers now timeout (-1) store).2 ≠ [] at left
  change ∃ oldest ∈ nodesOf (checkPeers now timeout (-1) store).2,
    (∀ node ∈ nodesOf (checkPeers now timeout (-1) store).2, oldest.lastAccess ≤ node.lastAccess) ∧
    _
  rw [result]
  generalize checkPeers now timeout (-1) store = checked at earliest left ⊢
  obtain ⟨nextTimeout, remaining⟩ := checked
  obtain ⟨below, least, attained⟩ := earliest
  simp only at below least attained left ⊢
  obtain ⟨oldest, member, access⟩ :
      ∃ oldest ∈ nodesOf remaining, oldest.lastAccess = nextTimeout := by
    rcases attained with unset | inside
    · obtain ⟨node, there⟩ := exists_mem_of_ne_nil _ left
      have low := least _ (mem_map_of_mem there)
      refine ⟨node, there, UInt32.toNat_inj.mp ?_⟩
      rw [unset, UInt32.le_iff_toNat_le] at low
      rw [unset]
      exact Nat.le_antisymm (Nat.le_of_lt_succ node.lastAccess.toNat_lt) low
    · obtain ⟨oldest, member, access⟩ := mem_map.mp inside
      exact ⟨oldest, member, access⟩
  subst access
  refine ⟨oldest, member, fun node there => least _ (mem_map_of_mem there), ?_⟩
  by_cases last : oldest.lastAccess = -1
  · rw [if_pos last, if_pos (by rw [last]; rfl)]
    rfl
  · have early : oldest.lastAccess.toNat ≠ 2 ^ 32 - 1 := fun same => last (UInt32.toNat_inj.mp same)
    rw [if_neg last, if_neg early, UInt32.toNat_mul, UInt32.toNat_sub]
    congr 3
    have bound := now.toNat_lt
    change 2 ^ 32 - now.toNat + oldest.lastAccess.toNat = _
    omega

/-- The time that is returned is that of the next expiry, exactly if no node is left or the
wrap of the difference is made good by one of the timeout. -/
theorem announcesExpiry_iff (now : UInt32)
    (timeout : Int32) (store : BlockStore A) (positive : 0 ≤ timeout.toInt) :
    AnnouncesExpiry now timeout store ↔ TellsExpiry now timeout store := by
  by_cases left : nodesOf (checkBlockwiseTimeoutMs now timeout store).2 = []
  · have allExpired : ∀ node ∈ nodesOf store, node.expired now timeout = true := by
      intro node member
      by_contra fresh
      have stays := mem_checked.mpr ⟨member, Bool.eq_false_of_not_eq_true fresh⟩
      rw [left] at stays
      exact absurd stays not_mem_nil
    have unset : (checkBlockwiseTimeoutMs now timeout store).1 = 0xFFFFFFFF := by
      have attained := (checkPeers_earliest now timeout (-1) store).attained
      change nodesOf (checkPeers now timeout (-1) store).2 = [] at left
      rw [left] at attained
      have bounded := attained.resolve_right not_mem_nil
      change (if (checkPeers now timeout (-1) store).1 = -1 then -1 else _) = 0xFFFFFFFF
      rw [if_pos bounded]
      rfl
    exact iff_of_true ⟨⟨fun _ => left, fun _ => unset⟩, fun remains => absurd left remains⟩
      (.inl allExpired)
  · obtain ⟨oldest, member, least, returned⟩ := checkBlockwiseTimeoutMs_earliest left
    obtain ⟨there, fresh⟩ := mem_checked.mp member
    have first : IsLeast {time | ∃ node ∈ nodesOf (checkBlockwiseTimeoutMs now timeout store).2,
        time = node.expiresAt timeout} (oldest.expiresAt timeout) := isLeast_expiresAt member least
    have later : (now.toNat : Int) < oldest.lastAccess.toNat + timeout.toInt + 1 := by
      have notYet : ¬ oldest.expiresAt timeout ≤ now.toNat * 1000 := by
        rw [← expired_iff, fresh]
        exact Bool.false_ne_true
      rw [BlockNode.expiresAt] at notYet
      omega
    have right := result_iff oldest.lastAccess.toNat_lt now.toNat_lt positive
      timeout.toInt_lt later returned
    constructor
    · intro announces
      obtain ⟨positiveResult, most, isLeast⟩ := announces.next left
      have set : (checkBlockwiseTimeoutMs now timeout store).1.toNat ≠ 2 ^ 32 - 1 :=
        fun same => left (announces.idle.mp (UInt32.toNat_inj.mp same))
      obtain ⟨divides, late, short⟩ := right.mp ⟨set, positiveResult, most, isLeast.unique first⟩
      refine .inr ⟨divides, oldest, there, fresh, ?_, UInt32.le_iff_toNat_le.mpr late, short⟩
      exact fun node inStore remains => least node (mem_checked.mpr ⟨inStore, remains⟩)
    · rintro (allExpired | ⟨divides, other, inStore, remains, leastOther, late, short⟩)
      · rw [allExpired oldest there] at fresh
        cases fresh
      · have same : other.lastAccess = oldest.lastAccess :=
          UInt32.le_antisymm (leastOther oldest there fresh)
            (least other (mem_checked.mpr ⟨inStore, remains⟩))
        rw [BlockNode.expiresAt, same] at short
        rw [same] at late
        obtain ⟨set, positiveResult, most, exactly⟩ :=
          right.mpr ⟨divides, UInt32.le_iff_toNat_le.mp late, short⟩
        refine ⟨iff_of_false (fun same => set (by rw [same]; rfl)) left,
          fun _ => ⟨positiveResult, most, ?_⟩⟩
        rw [exactly]
        exact first

/-- A node that was accessed at the third second. -/
def agedNode : BlockNode := ⟨.ofBytes [0x61], [7], 1, 0, 0, 3, true⟩

theorem announcesExpiry_released : AnnouncesExpiry 9 5 [(true, [agedNode])] :=
  (announcesExpiry_iff 9 5 [(true, [agedNode])] (by decide)).mpr (.inl (by decide))

/-- One second later the caller is told to wait for 4294966296 milliseconds. -/
theorem announcesExpiry_fails :
    ¬ ∀ (now : UInt32) (timeout : Int32) (store : BlockStore Bool), 0 ≤ timeout.toInt →
      AnnouncesExpiry now timeout store := by
  intro claimed
  have announces := (claimed 4 5 [(true, [agedNode])] (by decide)).next (by decide)
  exact absurd announces.2.1 (by decide)

end Idrm.Coap
