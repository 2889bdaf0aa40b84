import Mathlib.Data.List.DropRight
import Mathlib.Data.List.Nodup
import Mathlib.Data.Nat.Notation

/-!
# The database backups

`backup-db.sh` writes a dump and then removes all but the newest `$KEEP` of them. The file is there
from the moment the dump starts. When `pg_dump` fails the script ends, but what was written stays,
and counts as one of the dumps when they are removed.

## Main definitions

* `Run`, `backupDb`, `after`: runs of the script, and the directory they leave.
* `Retained`: the newest complete dumps are there.
* `Undisturbed`: no failed run takes the place of a dump.

## Main results

* `after_concat_of_dumped`: after a run that reaches its end the files are those of the last runs,
  failed or not.
* `backupDb_retains_iff`: the newest complete dumps are there after each of these runs exactly when
  the failed runs are such that they disturb none.
* `complete_after_failures`: in the worst case, there is one.
-/

namespace Scripts

/-! ## The script -/

/-- A run of the script: its timestamp, and whether `pg_dump` succeeds. -/
structure Run where
  ts : ℕ
  dumped : Bool
  deriving DecidableEq

/-- A file in `$OUT_DIR`, with the timestamp in its name, and whether it is a whole dump. -/
structure DumpFile where
  ts : ℕ
  complete : Bool
  deriving DecidableEq

/-- What a run writes. A run that fails leaves what it has written by then. -/
def Run.file (run : Run) : DumpFile := { ts := run.ts, complete := run.dumped }

/-- `ls -1t`: the file that was written last is the first. -/
def lsByTime (dir : List DumpFile) : List DumpFile := dir.mergeSort fun f g => g.ts ≤ f.ts

/-- `ls -1t … | tail -n +$((KEEP + 1)) | while read -r old; do rm -f "$old"; done`. -/
def prune (keep : ℕ) (dir : List DumpFile) : List DumpFile :=
  let old := ((lsByTime dir).drop keep).map DumpFile.ts
  dir.filter fun f => f.ts ∉ old

/-- `backup-db.sh`: what is in the directory then, and whether the run has reached its end. -/
def backupDb (keep : ℕ) (run : Run) (dir : List DumpFile) : List DumpFile × Bool :=
  let dir := run.file :: dir
  -- `set -e` and `pipefail`: a dump that fails is the end
  if run.dumped then (prune keep dir, true) else (dir, false)

/-- The directory after these runs, one after another. -/
def after (keep : ℕ) (runs : List Run) : List DumpFile :=
  runs.foldl (fun dir run => (backupDb keep run dir).1) []

/-! ## What should be there -/

/-- The newest of the complete dumps are in the directory, `keep` of them if there were as many. -/
def Retained (keep : ℕ) (runs : List Run) : Prop :=
  let done := runs.filter Run.dumped
  ∀ run ∈ done.rtake (min keep done.length), run.file ∈ after keep runs

/-- They are, after every one of these runs that reaches its end. -/
def AlwaysRetained (keep : ℕ) (runs : List Run) : Prop :=
  ∀ before run, before ++ [run] <+: runs → (backupDb keep run (after keep before)).2 = true →
    Retained keep (before ++ [run])

/-- None of the last `keep` runs has failed, or none of those before them succeeded. -/
def Undisturbed (keep : ℕ) (runs : List Run) : Prop :=
  (∀ run ∈ runs.rtake keep, run.dumped = true) ∨ ∀ run ∈ runs.rdrop keep, run.dumped = false

/-! ## The directory -/

/-- Each file was written after those behind it. -/
def NewestFirst (dir : List DumpFile) : Prop := dir.Pairwise fun f g => g.ts < f.ts

variable {keep : ℕ} {runs : List Run} {run : Run} {dir : List DumpFile}

/-- Of a directory in order, the files at the front are kept. -/
theorem prune_eq_take (hdir : NewestFirst dir) : prune keep dir = dir.take keep := by
  have hls : lsByTime dir = dir :=
    List.mergeSort_of_pairwise (hdir.imp fun h => decide_eq_true (Nat.le_of_lt h))
  have hnewer : ∀ f ∈ dir.take keep, ∀ g ∈ dir.drop keep, g.ts < f.ts := by
    have hsplit := hdir
    rw [NewestFirst, ← List.take_append_drop keep dir, List.pairwise_append] at hsplit
    exact hsplit.2.2
  -- a file is named by its timestamp, and none at the front has one of those behind it
  have hfront : (dir.take keep).filter (fun f => f.ts ∉ (dir.drop keep).map DumpFile.ts) =
      dir.take keep := by
    refine List.filter_eq_self.mpr fun f hf => decide_eq_true fun hmem => ?_
    obtain ⟨g, hg, heq⟩ := List.mem_map.mp hmem
    exact absurd heq (Nat.ne_of_lt (hnewer f hf g hg))
  have hback : (dir.drop keep).filter (fun f => f.ts ∉ (dir.drop keep).map DumpFile.ts) = [] :=
    List.filter_eq_nil_iff.mpr fun f hf hmem =>
      of_decide_eq_true hmem (List.mem_map_of_mem hf)
  unfold prune
  rw [hls]
  calc dir.filter (fun f => f.ts ∉ (dir.drop keep).map DumpFile.ts)
      = (dir.take keep ++ dir.drop keep).filter
          (fun f => f.ts ∉ (dir.drop keep).map DumpFile.ts) := by rw [List.take_append_drop]
    _ = dir.take keep := by rw [List.filter_append, hfront, hback, List.append_nil]

/-- The files of all these runs, as if none had been removed. -/
def history (runs : List Run) : List DumpFile := (runs.map Run.file).reverse

theorem history_concat (runs : List Run) (run : Run) :
    history (runs ++ [run]) = run.file :: history runs := by
  simp [history]

/-- The runs are one after another, each at a time of its own. -/
def InOrder (runs : List Run) : Prop := runs.Pairwise fun r r' => r.ts < r'.ts

/-- The files of runs in order come newest first. -/
theorem newestFirst_history (hruns : InOrder runs) : NewestFirst (history runs) := by
  rw [NewestFirst, history, List.pairwise_reverse, List.pairwise_map]
  exact hruns

theorem after_concat (keep : ℕ) (runs : List Run) (run : Run) :
    after keep (runs ++ [run]) = (backupDb keep run (after keep runs)).1 := by
  rw [after, List.foldl_append]
  rfl

/-- The directory holds files of the history, in its order, and the newest `keep` of them all. -/
def HoldsFront (keep : ℕ) (runs : List Run) (dir : List DumpFile) : Prop :=
  dir.Sublist (history runs) ∧ dir.take keep = (history runs).take keep

/-- A run puts its file in front of both. -/
theorem HoldsFront.write (h : HoldsFront keep runs dir) (run : Run) :
    HoldsFront keep (runs ++ [run]) (run.file :: dir) := by
  obtain ⟨hsub, htake⟩ := h
  unfold HoldsFront
  rw [history_concat]
  refine ⟨hsub.cons_cons _, ?_⟩
  cases keep with
  | zero => rfl
  | succ keep =>
    have hless := congrArg (List.take keep) htake
    rw [List.take_take, List.take_take, Nat.min_eq_left (Nat.le_succ keep)] at hless
    rw [List.take_succ_cons, List.take_succ_cons, hless]

/-- Pruning leaves that front, and nothing else. -/
theorem HoldsFront.prune_eq (h : HoldsFront keep runs dir) (hruns : InOrder runs) :
    prune keep dir = (history runs).take keep := by
  rw [prune_eq_take ((newestFirst_history hruns).sublist h.1), h.2]

/-- After any runs the directory holds the newest files. -/
theorem holdsFront_after (hruns : InOrder runs) : HoldsFront keep runs (after keep runs) := by
  induction runs using List.reverseRecOn with
  | nil => exact ⟨List.Sublist.refl _, rfl⟩
  | append_singleton runs run ih =>
    have hwritten := (ih (List.pairwise_append.mp hruns).1).write run
    rw [after_concat]
    unfold backupDb
    split
    · -- the run prunes
      dsimp only
      rw [hwritten.prune_eq hruns]
      refine ⟨List.take_sublist _ _, ?_⟩
      rw [List.take_take, Nat.min_self]
    · -- the run fails, and its file stays
      exact hwritten

/-- After a run that reaches its end the directory holds the files of the last runs, whether they
failed or not. -/
theorem after_concat_of_dumped (hruns : InOrder (runs ++ [run])) (hrun : run.dumped = true) :
    after keep (runs ++ [run]) = (history (runs ++ [run])).take keep := by
  have hbefore : HoldsFront keep runs (after keep runs) :=
    holdsFront_after (List.pairwise_append.mp hruns).1
  rw [after_concat, backupDb, if_pos hrun]
  exact (hbefore.write run).prune_eq hruns

/-! ## What is lost -/

/-- The first `k` elements with a property are among the first `k` elements exactly if all of those
have it, or none of the others. -/
theorem take_filter_subset_take_iff {α : Type} {l : List α} (hl : l.Nodup) (p : α → Bool) (k : ℕ) :
    (∀ x ∈ (l.filter p).take k, x ∈ l.take k) ↔
      (∀ x ∈ l.take k, p x = true) ∨ ∀ x ∈ l.drop k, p x = false := by
  have hfilter : l.filter p = (l.take k).filter p ++ (l.drop k).filter p := by
    rw [← List.filter_append, List.take_append_drop]
  constructor
  · intro hsub
    by_contra hnot
    rw [not_or] at hnot
    obtain ⟨hfront, hback⟩ := hnot
    -- the front does not fill up its `k` places, so the first of the others comes in
    have hshort : ((l.take k).filter p).length < k := by
      refine lt_of_lt_of_le ?_ (List.length_take_le k l)
      refine lt_of_le_of_ne (List.length_filter_le _ _) fun hall => hfront ?_
      exact List.length_filter_eq_length_iff.mp hall
    cases hrest : (l.drop k).filter p with
    | nil =>
      refine hback fun x hx => ?_
      simpa using List.filter_eq_nil_iff.mp hrest x hx
    | cons x rest =>
      have hx : x ∈ l.drop k := (List.mem_filter.mp (hrest ▸ List.mem_cons_self)).1
      have hin : x ∈ (l.filter p).take k := by
        rw [hfilter, hrest, List.take_append, List.mem_append]
        right
        obtain ⟨n, hn⟩ := Nat.exists_eq_succ_of_ne_zero (Nat.sub_ne_zero_of_lt hshort)
        rw [hn, List.take_succ_cons]
        exact List.mem_cons_self
      exact List.disjoint_take_drop hl le_rfl (hsub x hin) hx
  · rintro (hfront | hback) x hx
    · rw [hfilter, List.filter_eq_self.mpr hfront, List.take_append, List.mem_append] at hx
      rcases hx with hx | hx
      · exact List.mem_of_mem_take hx
      · -- where there are others the front is full
        have hlen : k < l.length := by
          have hmem := (List.mem_filter.mp (List.mem_of_mem_take hx)).1
          have hpos := List.length_pos_of_mem hmem
          rw [List.length_drop] at hpos
          omega
        rw [List.length_take_of_le (Nat.le_of_lt hlen), Nat.sub_self] at hx
        cases hx
    · have hnone : (l.drop k).filter p = [] :=
        List.filter_eq_nil_iff.mpr fun y hy => by simp [hback y hy]
      rw [hfilter, hnone, List.append_nil] at hx
      exact (List.mem_filter.mp (List.mem_of_mem_take hx)).1

/-- Different runs write different files. -/
theorem file_injective : Function.Injective Run.file := by
  rintro ⟨ts, dumped⟩ ⟨ts', dumped'⟩ h
  cases h
  rfl

/-- After a run that reaches its end the newest complete dumps are there exactly if the last runs
have not failed, or no other has succeeded. -/
theorem retained_concat_iff (hruns : InOrder (runs ++ [run])) (hrun : run.dumped = true) :
    Retained keep (runs ++ [run]) ↔ Undisturbed keep (runs ++ [run]) := by
  have hnodup : (runs ++ [run]).reverse.Nodup := by
    refine List.nodup_reverse.mpr (hruns.imp ?_)
    rintro r _ hlt rfl
    exact Nat.lt_irrefl _ hlt
  -- the files that are there are those of the last runs, by their timestamps
  have hthere (r : Run) :
      r.file ∈ after keep (runs ++ [run]) ↔ r ∈ (runs ++ [run]).reverse.take keep := by
    rw [after_concat_of_dumped hruns hrun, history, ← List.map_reverse, ← List.map_take,
      List.mem_map_of_injective file_injective]
  have hdone : ((runs ++ [run]).filter Run.dumped).reverse.take
      (min keep ((runs ++ [run]).filter Run.dumped).length) =
        ((runs ++ [run]).reverse.filter Run.dumped).take keep := by
    rw [← List.length_reverse, ← List.take_eq_take_min, List.filter_reverse]
  unfold Retained Undisturbed
  simp only [hthere, List.rtake_eq_reverse_take_reverse, List.rdrop_eq_reverse_drop_reverse,
    List.mem_reverse, hdone]
  exact take_filter_subset_take_iff hnodup Run.dumped keep

/-- In every sequence of runs: after each run that reaches its end the newest complete dumps are
there, exactly if at each run in which `pg_dump` succeeds the runs so far are undisturbed. -/
theorem backupDb_retains_iff (keep : ℕ) (runs : List Run) (hruns : InOrder runs) :
    AlwaysRetained keep runs ↔
      ∀ before run, before ++ [run] <+: runs → run.dumped = true →
        Undisturbed keep (before ++ [run]) := by
  -- a run reaches its end exactly if its dump succeeds
  have hend (before : List Run) (run : Run) :
      (backupDb keep run (after keep before)).2 = true ↔ run.dumped = true := by
    unfold backupDb
    split
    · next h => simp [h]
    · next h => simp [h]
  refine forall_congr' fun before => forall_congr' fun run => forall_congr' fun hpre => ?_
  rw [hend]
  refine forall_congr' fun hrun => ?_
  exact retained_concat_iff (hruns.sublist hpre.sublist) hrun

/-- Two dumps are kept: a failed run in between, and the first of them is gone. -/
theorem not_retained_of_failure :
    ¬AlwaysRetained 2 [⟨1, true⟩, ⟨2, false⟩, ⟨3, true⟩] := by
  intro hall
  have hretained := hall [⟨1, true⟩, ⟨2, false⟩] ⟨3, true⟩ (List.prefix_refl _) rfl
  have hgone := hretained ⟨1, true⟩ (by decide)
  rw [after_concat_of_dumped (by simp [InOrder]) rfl] at hgone
  exact absurd hgone (by decide)

/-- A failure whose place is still free costs nothing. -/
theorem retained_of_failure :
    AlwaysRetained 3 [⟨1, true⟩, ⟨2, false⟩, ⟨3, true⟩] := by
  refine (backupDb_retains_iff 3 _ (by simp [InOrder])).mpr fun before run hpre _ => .inr ?_
  -- there are no more than three runs
  have hlen : (before ++ [run]).length - 3 = 0 := Nat.sub_eq_zero_of_le hpre.length_le
  rw [List.rdrop, hlen]
  simp

/-- When all but the last of the runs that count have failed, one complete dump is left. -/
theorem complete_after_failures {failed : List Run} (hruns : InOrder (runs ++ failed ++ [run]))
    (hfailed : ∀ r ∈ failed, r.dumped = false) (hrun : run.dumped = true)
    (hkeep : keep = failed.length + 1) :
    (after keep (runs ++ failed ++ [run])).filter DumpFile.complete = [run.file] := by
  have hhistory : (history (runs ++ failed ++ [run])).take keep =
      run.file :: (failed.map Run.file).reverse := by
    rw [history_concat, hkeep, List.take_succ_cons, history, List.map_append, List.reverse_append,
      List.take_left' (by simp)]
  -- of the files that are kept all but the newest are partial
  have hpartial : (failed.map Run.file).reverse.filter DumpFile.complete = [] := by
    refine List.filter_eq_nil_iff.mpr fun f hf => ?_
    obtain ⟨r, hr, rfl⟩ := List.mem_map.mp (List.mem_reverse.mp hf)
    simp [Run.file, hfailed r hr]
  have hwhole : run.file.complete = true := hrun
  rw [after_concat_of_dumped hruns hrun, hhistory, List.filter_cons_of_pos hwhole, hpartial]

end Scripts
