import Zboss.EndDeviceBind

/-!
# Matched clusters

What `check_cluster_list` stores are the clusters which two lists have in
common, as long as there is room for them.
-/

namespace Zboss

open List

def matchedClusters (list1 list2 : List ℕ) : List ℕ :=
  list1.flatMap fun cluster => list2.filter (· = cluster)

def ClusterList.clusters (list : ClusterList) : List ℕ :=
  (List.range list.num).map list.cluster

structure Stored (clusterList : ℕ → ℕ) (n : ℕ) (stored : List ℕ)
    (next : ℕ → ℕ) : Prop where
  before : ∀ k < n, next k = clusterList k
  at_index : ∀ k cluster, stored[k]? = some cluster → next (n + k) = cluster

section Stores

variable {f g h : ℕ → ℕ} {n : ℕ} {stored more : List ℕ}

theorem Stored.nil : Stored f n [] f :=
  ⟨fun _ _ => rfl, fun _ _ => nofun⟩

theorem Stored.singleton (cluster : ℕ) :
    Stored f n [cluster] (Function.update f n cluster) where
  before k hk := Function.update_of_ne (Nat.ne_of_lt hk) ..
  at_index k other hother := by
    cases k with
    | zero =>
      obtain rfl := Option.some.inj hother
      exact Function.update_self ..
    | succ k => cases hother

theorem Stored.append (hfirst : Stored f n stored g)
    (hsecond : Stored g (n + stored.length) more h) :
    Stored f n (stored ++ more) h where
  before k hk := by rw [hsecond.before k (Nat.lt_add_right _ hk), hfirst.before k hk]
  at_index k cluster hcluster := by
    by_cases hk : k < stored.length
    · rw [List.getElem?_append_left hk] at hcluster
      rw [hsecond.before _ (Nat.add_lt_add_left hk n)]
      exact hfirst.at_index k cluster hcluster
    · rw [List.getElem?_append_right (Nat.not_lt.mp hk)] at hcluster
      have hindex : n + k = n + stored.length + (k - stored.length) := by omega
      rw [hindex]
      exact hsecond.at_index _ cluster hcluster

end Stores

section Loops

variable {device : BindDev} {list1 list2 : ClusterList}

theorem foldl_storeIn_reads (list : ClusterList) (i : ℕ) (f : ℕ → ℕ) :
    (list.reads i).foldl BindAccess.storeIn f = f :=
  rfl

def rowMatches (list1 list2 : ClusterList) (i j rest : ℕ) : List ℕ :=
  ((List.range' j rest).map list2.cluster).filter (· = list1.cluster i)

theorem checkClusterRow_stores {i : ℕ} (rest j n : ℕ) (f : ℕ → ℕ)
    (hroom : n + (rowMatches list1 list2 i j rest).length ≤ zdoMaxClusterList) :
    let result := checkClusterRow device list1 list2 i rest j n
    result.1 = n + (rowMatches list1 list2 i j rest).length ∧
      Stored f n (rowMatches list1 list2 i j rest)
        (result.2.foldl BindAccess.storeIn f) := by
  have hmax : zdoMaxClusterList = 15 := rfl
  induction rest generalizing j n f with
  | zero => exact ⟨rfl, .nil⟩
  | succ rest ih =>
    rw [checkClusterRow]
    dsimp only
    by_cases hmatch : list1.cluster i = list2.cluster j
    case neg =>
      have hrow : rowMatches list1 list2 i j (rest + 1) =
          rowMatches list1 list2 i (j + 1) rest := by
        rw [rowMatches, List.range'_succ, map_cons,
          filter_cons_of_neg (by simpa using Ne.symm hmatch)]
        rfl
      rw [hrow] at hroom ⊢
      rw [if_neg hmatch]
      obtain ⟨hnum, hstored⟩ := ih (j + 1) n f hroom
      refine ⟨hnum, ?_⟩
      rw [foldl_append, foldl_append, foldl_storeIn_reads, foldl_storeIn_reads]
      exact hstored
    case pos =>
      have hrow : rowMatches list1 list2 i j (rest + 1) =
          [list1.cluster i] ++ rowMatches list1 list2 i (j + 1) rest := by
        rw [rowMatches, List.range'_succ, map_cons,
          filter_cons_of_pos (by simpa using hmatch.symm), hmatch]
        rw [rowMatches, hmatch]
        rfl
      rw [hrow] at hroom ⊢
      rw [length_append, length_singleton] at hroom ⊢
      have hmod : (n + 1) % 256 = n + 1 := by omega
      have hstore : Stored f n [list1.cluster i]
          ((list1.reads i ++ list2.reads j ++ list1.reads i ++
            [BindAccess.store device n (list1.cluster i)]).foldl
              BindAccess.storeIn f) := by
        rw [foldl_append, foldl_append, foldl_append,
          foldl_storeIn_reads, foldl_storeIn_reads, foldl_storeIn_reads]
        exact .singleton _
      rw [if_pos hmatch, hmod]
      split
      case isTrue hfull =>
        -- the loop over `j` ends, and nothing more matches
        have hnone : rowMatches list1 list2 i (j + 1) rest = [] :=
          length_eq_zero_iff.mp (by omega)
        rw [hnone]
        exact ⟨rfl, hstore⟩
      case isFalse =>
        obtain ⟨hnum, hstored⟩ := ih (j + 1) (n + 1) _ (by omega)
        refine ⟨hnum.trans (by omega), ?_⟩
        rw [foldl_append]
        exact hstore.append hstored

def rowsMatches (list1 list2 : ClusterList) (i rest : ℕ) : List ℕ :=
  (List.range' i rest).flatMap fun k => rowMatches list1 list2 k 0 list2.num

theorem checkClusterRows_stores (rest i n : ℕ) (f : ℕ → ℕ)
    (hroom : n + (rowsMatches list1 list2 i rest).length ≤ zdoMaxClusterList) :
    let result := checkClusterRows device list1 list2 rest i n
    result.1 = n + (rowsMatches list1 list2 i rest).length ∧
      Stored f n (rowsMatches list1 list2 i rest)
        (result.2.foldl BindAccess.storeIn f) := by
  induction rest generalizing i n f with
  | zero => exact ⟨rfl, .nil⟩
  | succ rest ih =>
    have hrows : rowsMatches list1 list2 i (rest + 1) =
        rowMatches list1 list2 i 0 list2.num ++
          rowsMatches list1 list2 (i + 1) rest := by
      rw [rowsMatches, List.range'_succ, flatMap_cons]
      rfl
    rw [hrows] at hroom ⊢
    rw [length_append] at hroom ⊢
    rw [checkClusterRows]
    obtain ⟨hnum, hstored⟩ :=
      @checkClusterRow_stores device list1 list2 i list2.num 0 n f (by omega)
    dsimp only at hnum hstored ⊢
    rw [hnum]
    obtain ⟨hnum', hstored'⟩ := ih (i + 1) _ _ ((Nat.add_assoc ..).trans_le hroom)
    refine ⟨hnum'.trans (Nat.add_assoc ..), ?_⟩
    rw [foldl_append]
    exact hstored.append hstored'

theorem rowsMatches_all : rowsMatches list1 list2 0 list1.num =
      matchedClusters list1.clusters list2.clusters := by
  simp only [matchedClusters, ClusterList.clusters, range_eq_range',
    flatMap_map, rowsMatches, rowMatches]

theorem checkClusterList_stores (f : ℕ → ℕ)
    (hroom : (matchedClusters list1.clusters list2.clusters).length ≤ zdoMaxClusterList) :
    (checkClusterList device list1 list2).1 =
        (matchedClusters list1.clusters list2.clusters).length ∧
      Stored f 0 (matchedClusters list1.clusters list2.clusters)
        ((checkClusterList device list1 list2).2.foldl BindAccess.storeIn f) := by
  rw [← rowsMatches_all] at hroom ⊢
  have hrows := @checkClusterRows_stores device list1 list2 list1.num 0 0 f
    ((Nat.zero_add _).trans_le hroom)
  dsimp only at hrows
  rw [Nat.zero_add] at hrows
  exact hrows

end Loops

end Zboss
