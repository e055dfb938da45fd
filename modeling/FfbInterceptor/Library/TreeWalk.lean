import Mathlib.Data.List.Perm.Basic

/-! Loops that work through a tree by a queue of its inner nodes. -/
namespace FfbInterceptor.Library

section TreeWalk
variable {ν ι σ ε : Type*} (items : ν → List ι) (node? : ι → Option ν)

/-- The loop over a queue of nodes: the items of the first are visited, and those that are nodes
themselves join the queue. -/
def walk (visit : σ → ι → Except ε σ) : Nat → List ν → σ → Except ε σ
  | 0, _, state => .ok state
  | _ + 1, [], state => .ok state
  | fuel + 1, node :: queue, state =>
    match (items node).foldlM visit state with
    | .error error => .error error
    | .ok state => walk visit fuel (queue ++ (items node).filterMap node?) state

/-- The items in the order in which the loop meets them. -/
def walkOrder : Nat → List ν → List ι
  | 0, _ => []
  | _ + 1, [] => []
  | fuel + 1, node :: queue => items node ++ walkOrder fuel (queue ++ (items node).filterMap node?)

theorem walk_eq_foldlM (visit : σ → ι → Except ε σ) (fuel : Nat) (queue : List ν) (state : σ) :
    walk items node? visit fuel queue state =
      (walkOrder items node? fuel queue).foldlM visit state := by
  induction fuel generalizing queue state with
  | zero => rfl
  | succ fuel ih =>
    cases queue with
    | nil => rfl
    | cons node queue =>
      rw [walk, walkOrder, List.foldlM_append]
      cases hvisit : (items node).foldlM visit state with
      | error error => rfl
      | ok next => exact ih _ next

variable {items node?} {all : ν → List ι}

/-- With a round for every node of the tree the loop meets every item below its queue once. -/
theorem walkOrder_perm
    (hall : ∀ node, (all node).Perm (items node ++ ((items node).filterMap node?).flatMap all))
    {fuel : Nat} {queue : List ν}
    (hfuel : queue.length + ((queue.flatMap all).filterMap node?).length ≤ fuel) :
    (walkOrder items node? fuel queue).Perm (queue.flatMap all) := by
  induction fuel generalizing queue with
  | zero =>
    obtain rfl : queue = [] := List.eq_nil_of_length_eq_zero (by omega)
    exact List.Perm.refl _
  | succ fuel ih =>
    cases queue with
    | nil => exact List.Perm.refl _
    | cons node queue =>
      have hqueue : (queue.flatMap all ++ ((items node).filterMap node?).flatMap all).Perm
          ((queue ++ (items node).filterMap node?).flatMap all) := by
        rw [List.flatMap_append]
      have hsplit : ((node :: queue).flatMap all).Perm (items node ++
          (queue ++ (items node).filterMap node?).flatMap all) := by
        rw [List.flatMap_cons]
        refine ((hall node).append_right _).trans ?_
        rw [List.append_assoc]
        exact (List.perm_append_comm.trans hqueue).append_left _
      have hcount := (hsplit.filterMap node?).length_eq
      rw [List.filterMap_append, List.length_append] at hcount
      rw [walkOrder]
      refine ((ih ?_).append_left _).trans hsplit.symm
      rw [List.length_append]
      rw [List.length_cons] at hfuel
      omega

/-- What holds of the nodes in the queue and passes on to items, and from items to nodes, holds of all
that is met. -/
theorem forall_walkOrder {N : ν → Prop} {I : ι → Prop}
    (hitems : ∀ node, N node → ∀ item ∈ items node, I item)
    (hnodes : ∀ item node, I item → node? item = some node → N node) {fuel : Nat} {queue : List ν}
    (hqueue : ∀ node ∈ queue, N node) : ∀ item ∈ walkOrder items node? fuel queue, I item := by
  induction fuel generalizing queue with
  | zero => exact fun item hitem => absurd hitem List.not_mem_nil
  | succ fuel ih =>
    cases queue with
    | nil => exact fun item hitem => absurd hitem List.not_mem_nil
    | cons node queue =>
      obtain ⟨hnode, hrest⟩ := List.forall_mem_cons.mp hqueue
      have hnext : ∀ other ∈ queue ++ (items node).filterMap node?, N other := by
        intro other hother
        cases List.mem_append.mp hother with
        | inl hin => exact hrest other hin
        | inr hin =>
          obtain ⟨item, hitem, hsome⟩ := List.mem_filterMap.mp hin
          exact hnodes item other (hitems node hnode item hitem) hsome
      intro item hitem
      rw [walkOrder] at hitem
      cases List.mem_append.mp hitem with
      | inl hin => exact hitems node hnode item hin
      | inr hin => exact ih hnext item hin

end TreeWalk

end FfbInterceptor.Library
