import Mathlib.Combinatorics.SimpleGraph.Connectivity.Connected

/-!
# Edges on paths

An edge lies on a path from one of its ends to any vertex that can be reached from them.  The path
is unique in a tree, so there an edge separates the vertices into those that are reached through
it and those that are not.
-/

namespace SimpleGraph

variable {V : Type*} {G : SimpleGraph V}

/-- A path to a vertex beyond the edge can be made to begin with the edge. -/
theorem Adj.exists_isPath_mem_edges [DecidableEq V] {a b v : V} (hadj : G.Adj a b)
    (hreach : G.Reachable a v) :
    (∃ walk : G.Walk a v, walk.IsPath ∧ s(a, b) ∈ walk.edges) ∨
      ∃ walk : G.Walk b v, walk.IsPath ∧ s(a, b) ∈ walk.edges := by
  obtain ⟨walk, hpath⟩ := hreach.symm.exists_isPath
  by_cases hb : b ∈ walk.support
  · left
    -- `walk` reaches `b` before its end `a`; from there the edge leads to `a`
    have ha := Walk.endpoint_notMem_support_takeUntil hpath hb hadj.ne
    refine ⟨(walk.takeUntil b hb).reverse.cons hadj, ?_, by simp⟩
    refine (hpath.takeUntil hb).reverse.cons ?_
    rwa [Walk.support_reverse, List.mem_reverse]
  · right
    refine ⟨walk.reverse.cons hadj.symm, hpath.reverse.cons ?_, by simp [Sym2.eq_swap]⟩
    rwa [Walk.support_reverse, List.mem_reverse]

end SimpleGraph
