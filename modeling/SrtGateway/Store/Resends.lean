/-
Resends of fixes, and sequence numbers that wrap around.

Whether a fix is stored again depends only on the fix that was stored last with its
`(node_id, sequence)` (`insertFix_resend_iff`).  So a fix is stored exactly once as long as the
fixes with one pair come in turn, each within the dedup window of its own copies and outside of
that of the others (`insertFixes_exactly_once`).
-/
import SrtGateway.Store.History

namespace SrtGateway.Store

open SrtGateway.Protocol

/-- The store after the fixes have been inserted one after the other. -/
def Db.insertFixes (db : Db) (us : List Uplink) : Db := us.foldl (fun db u => (db.insertFix u).2) db

lemma insertFixes_concat (db : Db) (us : List Uplink) (u : Uplink) :
    db.insertFixes (us ++ [u]) = ((db.insertFixes us).insertFix u).2 := by
  simp [Db.insertFixes]

/-! ### First deliveries -/

section

variable {α : Type} [BEq α] [LawfulBEq α]

lemma eraseDups_concat_of_mem {l : List α} {a : α} (h : a ∈ l) :
    (l ++ [a]).eraseDups = l.eraseDups := by
  simp [List.eraseDups_append, List.removeAll, h]

lemma eraseDups_concat_of_not_mem {l : List α} {a : α} (h : a ∉ l) :
    (l ++ [a]).eraseDups = l.eraseDups ++ [a] := by
  simp [List.eraseDups_append, List.eraseDups_cons, List.removeAll, h]

lemma eraseDups_sublist (l : List α) : l.eraseDups.Sublist l := by
  induction l using List.reverseRecOn with
  | nil => simp
  | append_singleton l a ih =>
    by_cases h : a ∈ l
    · rw [eraseDups_concat_of_mem h]
      exact ih.trans (List.sublist_append_left l [a])
    · rw [eraseDups_concat_of_not_mem h]
      exact ih.append_right [a]

end

/-! ### The latest fix of a pair -/

variable {db : Db} {stored : List Uplink} {u v : Uplink} {i : ℕ} {p : ℤ × ℤ}

lemma latest_eq_some (h : latest stored p = some (v, i)) :
    ∃ before after, stored = before ++ v :: after ∧ before.length = i ∧ pairOf v = p ∧
      p ∉ after.map pairOf := by
  induction stored using List.reverseRecOn with
  | nil => simp [latest] at h
  | append_singleton stored u ih =>
    rw [latest_concat] at h
    split_ifs at h with hu
    · obtain ⟨rfl, rfl⟩ := Prod.mk.inj (Option.some.inj h)
      exact ⟨stored, [], rfl, rfl, hu, List.not_mem_nil⟩
    · obtain ⟨before, after, rfl, hlength, hv, hafter⟩ := ih h
      refine ⟨before, after ++ [u], by simp, hlength, hv, ?_⟩
      simpa using ⟨by simpa using hafter, Ne.symm hu⟩

lemma latest_eq_none (h : latest stored p = none) : p ∉ stored.map pairOf := by
  induction stored using List.reverseRecOn with
  | nil => exact List.not_mem_nil
  | append_singleton stored u ih =>
    rw [latest_concat] at h
    split_ifs at h with hu
    simpa using ⟨by simpa using ih h, Ne.symm hu⟩

/-- A fix that has been stored is the latest of its pair, or was stored before that one. -/
lemma exists_latest (hu : u ∈ stored) :
    ∃ v i, latest stored (pairOf u) = some (v, i) ∧ pairOf v = pairOf u ∧
      (u = v ∨ [u, v].Sublist stored) := by
  cases hlatest : latest stored (pairOf u) with
  | none => exact absurd (List.mem_map_of_mem hu) (latest_eq_none hlatest)
  | some x =>
    obtain ⟨v, i⟩ := x
    obtain ⟨before, after, rfl, -, hv, hafter⟩ := latest_eq_some hlatest
    refine ⟨v, i, rfl, hv, ?_⟩
    rcases List.mem_append.mp hu with hbefore | hrest
    · refine .inr ((List.singleton_sublist.mpr hbefore).append ?_)
      exact List.singleton_sublist.mpr (List.mem_cons_self ..)
    · rcases List.mem_cons.mp hrest with rfl | hmem
      · exact .inl rfl
      · exact absurd (List.mem_map_of_mem hmem) hafter

/-! ### Fixes that come in turn -/

/-- Deliveries of emissions that the dedup window tells apart. -/
structure InTurn (deliveries : List Uplink) : Prop where
  /-- The integers fit in 64 bits. -/
  fit : ∀ u ∈ deliveries, ∀ n ∈ insertParams u, -2 ^ 63 ≤ n ∧ n < 2 ^ 63
  /-- Different emissions with the same pair are further apart than the window. -/
  apart : ∀ u ∈ deliveries, ∀ v ∈ deliveries, pairOf u = pairOf v → u ≠ v →
    DEDUP_WINDOW_MS < |u.tsMs - v.tsMs|
  /-- A fix does not come again once another one with its pair has come. -/
  turns : ∀ u v, [u, v, u].Sublist deliveries → pairOf u = pairOf v → u = v

lemma InTurn.sublist {us vs : List Uplink} (h : InTurn vs) (hsub : us.Sublist vs) : InTurn us where
  fit u hu := h.fit u (hsub.subset hu)
  apart u hu v hv := h.apart u (hsub.subset hu) v (hsub.subset hv)
  turns u v hcopies := h.turns u v (hcopies.trans hsub)

/-- A delivery is recognised as a resend just when it is one. -/
lemma InTurn.isRepeat_eq {us : List Uplink} (h : InTurn (us ++ [u])) :
    isRepeat us.eraseDups u = decide (u ∈ us) := by
  by_cases hu : u ∈ us
  · -- the slot is held by the fix itself: another one would have taken its turn
    obtain ⟨v, i, hlatest, hpair, hv⟩ := exists_latest (List.mem_eraseDups.mpr hu)
    obtain rfl : u = v := by
      obtain hv | hsub := hv
      · exact hv
      · have hcopies : [u, v, u].Sublist (us ++ [u]) :=
          (hsub.trans (eraseDups_sublist us)).append (List.Sublist.refl [u])
        exact h.turns u v hcopies hpair.symm
    simp [isRepeat, hlatest, hu, DEDUP_WINDOW_MS]
  · cases hlatest : latest us.eraseDups (pairOf u) with
    | none => simp [isRepeat, hlatest, hu]
    | some x =>
      obtain ⟨v, i⟩ := x
      obtain ⟨before, after, heq, -, hpair, -⟩ := latest_eq_some hlatest
      have hv : v ∈ us := List.mem_eraseDups.mp (heq ▸ by simp)
      have hfar : DEDUP_WINDOW_MS < |u.tsMs - v.tsMs| :=
        h.apart u (by simp) v (List.mem_append_left _ hv) hpair.symm fun huv => hu (huv ▸ hv)
      simp [isRepeat, hlatest, hu, hfar]

lemma insertFix_unmarked (hdb : ∀ r ∈ db.fixes, r.synced = false) (u : Uplink) :
    ∀ r ∈ (db.insertFix u).2.fixes, r.synced = false := by
  have hnew : ∀ rows : List FixRow, (∀ r ∈ rows, r.synced = false) →
      ∀ r ∈ rows ++ [rowOf db.nextId u], r.synced = false := by
    intro rows hrows r hr
    rcases List.mem_append.mp hr with hr | hr
    · exact hrows r hr
    · rw [List.mem_singleton.mp hr]
      rfl
  rcases hcase : db.insertFix u with ⟨outcome, db'⟩
  cases hcase ▸ insertFix_cases db u with
  | raised x => exact hdb
  | resend row nodes slot recent => exact hdb
  | fresh nodes slot => exact hnew _ hdb
  | wrapped row nodes slot stale =>
    refine hnew _ fun r hr => ?_
    obtain ⟨r', hr', rfl⟩ := List.mem_map.mp hr
    split
    · exact hdb r' hr'
    · exact hdb r' hr'

lemma insertFixes_unmarked (us : List Uplink) :
    ∀ r ∈ (Db.empty.insertFixes us).fixes, r.synced = false := by
  induction us using List.reverseRecOn with
  | nil => simp [Db.insertFixes, Db.empty]
  | append_singleton us u ih =>
    rw [insertFixes_concat]
    exact insertFix_unmarked ih u

lemma InTurn.bindParams {us : List Uplink} (h : InTurn us) (hu : u ∈ us) :
    bindParams (insertParams u) = .ok () := by
  rw [Store.bindParams, if_pos]
  simpa using h.fit u hu

/-- Deliveries in turn are stored exactly once each. -/
lemma InTurn.records {us : List Uplink} (h : InTurn us) :
    Records (Db.empty.insertFixes us) us.eraseDups := by
  induction us using List.reverseRecOn with
  | nil => exact Records.empty
  | append_singleton us u ih =>
    have hrec := ih (h.sublist (List.sublist_append_left us [u]))
    have hfit := h.bindParams (List.mem_append_right us (List.mem_singleton_self u))
    have hreturns := hrec.insertFix_eq hfit
    rw [h.isRepeat_eq] at hreturns
    rw [insertFixes_concat]
    obtain ⟨hok, hnext⟩ | ⟨hno, hsame⟩ := hrec.insertFix u
    · have hu : u ∉ us := by simpa [hok] using hreturns
      rwa [eraseDups_concat_of_not_mem hu]
    · have hu : u ∈ us := by simpa [hreturns] using hno
      rw [eraseDups_concat_of_mem hu]
      exact hrec.congr (congrArg _ hsame)

/-- Deliveries in turn, in any other order and with any number of copies: `insert_fix` returns
`True` exactly at the first copy of each fix, and the table has one row for each of them, in
the order of their first copies. -/
theorem insertFixes_exactly_once (deliveries : List Uplink) (h : InTurn deliveries) :
    (∀ before u after, deliveries = before ++ u :: after →
      ((Db.empty.insertFixes before).insertFix u).1 = .ok (u ∉ before)) ∧
    (Db.empty.insertFixes deliveries).fixes = tableOf deliveries.eraseDups := by
  refine ⟨?_, ?_⟩
  · rintro before u after rfl
    have hupto : InTurn (before ++ [u]) :=
      h.sublist ((List.singleton_sublist.mpr (List.mem_cons_self ..)).append_left before)
    have hrec := (hupto.sublist (List.sublist_append_left before [u])).records
    have hfit := hupto.bindParams (List.mem_append_right before (List.mem_singleton_self u))
    rw [hrec.insertFix_eq hfit, hupto.isRepeat_eq, decide_not]
  · have hmap : (Db.empty.insertFixes deliveries).fixes.map FixRow.unmark =
        (Db.empty.insertFixes deliveries).fixes := by
      refine (List.map_congr_left fun r hr => ?_).trans (List.map_id _)
      rw [FixRow.unmark, ← insertFixes_unmarked deliveries r hr]
      rfl
    rw [← hmap]
    exact h.records

/-- The fix of node 1 that has the same sequence number before the wrap. -/
def beforeWrap : Uplink := fixOfNode 5

/-- The theorem at a fix that comes twice, and the one of the next cycle. -/
theorem insertFixes_exactly_once_wrap :
    (Db.empty.insertFixes [beforeWrap, beforeWrap, afterWrap]).fixes =
      [{ rowOf 1 beforeWrap with seq := none }, rowOf 2 afterWrap] := by
  have hne : beforeWrap ≠ afterWrap := by decide +kernel
  refine (insertFixes_exactly_once _ ⟨by decide +kernel, by decide +kernel, ?_⟩).2.trans
    (by decide +kernel)
  intro u v hcopies _
  have heq : [u, v, u] = [beforeWrap, beforeWrap, afterWrap] := hcopies.eq_of_length rfl
  obtain ⟨rfl, rfl, hlast, -⟩ : u = beforeWrap ∧ v = beforeWrap ∧ u = afterWrap ∧ True := by
    simpa using heq
  exact absurd hlast hne

/-! ### Fixes that come again -/

/-- All fixes that can be bound are resends. -/
def Covers (stored us : List Uplink) : Prop :=
  ∀ u ∈ us, bindParams (insertParams u) = .ok () → isRepeat stored u = true

/-- No two fixes with the same pair are further apart than the window. -/
def Close (us : List Uplink) : Prop :=
  ∀ u ∈ us, ∀ v ∈ us, pairOf u = pairOf v → |u.tsMs - v.tsMs| ≤ DEDUP_WINDOW_MS

lemma isRepeat_concat (stored : List Uplink) (u v : Uplink) :
    isRepeat (stored ++ [v]) u =
      if pairOf v = pairOf u then decide (|u.tsMs - v.tsMs| ≤ DEDUP_WINDOW_MS)
      else isRepeat stored u := by
  rw [isRepeat, latest_concat]
  split_ifs
  · rfl
  · rfl

/-- Fixes that are resends leave the table as it is. -/
lemma Records.insertFixes_of_covers (h : Records db stored) {us : List Uplink}
    (hcovers : Covers stored us) : (db.insertFixes us).fixes = db.fixes := by
  induction us generalizing db with
  | nil => rfl
  | cons u us ih =>
    obtain ⟨hu, hus⟩ := List.forall_mem_cons.mp hcovers
    have hsame : (db.insertFix u).2.fixes = db.fixes := by
      obtain ⟨hok, -⟩ | ⟨-, hsame⟩ := h.insertFix u
      · have hfit := bindParams_of_inserted hok
        rw [h.insertFix_eq hfit, hu hfit] at hok
        exact absurd hok (by decide)
      · exact hsame
    exact (ih (h.congr (congrArg _ hsame)) hus).trans hsame

lemma Records.length_fixes (h : Records db stored) : db.fixes.length = stored.length := by
  have hids := congrArg List.length h.ids
  simpa using hids

/-- Inserting fixes adds to the history. -/
lemma Records.insertFixes_append (h : Records db stored) (us : List Uplink) :
    ∃ more, Records (db.insertFixes us) (stored ++ more) := by
  induction us generalizing db stored with
  | nil => exact ⟨[], by rwa [List.append_nil]⟩
  | cons u us ih =>
    obtain ⟨-, hnext⟩ | ⟨-, hsame⟩ := h.insertFix u
    · obtain ⟨more, hmore⟩ := ih hnext
      exact ⟨u :: more, by rwa [List.append_assoc] at hmore⟩
    · exact ih (h.congr (congrArg _ hsame))

/-- **Inserting fixes adds no row** exactly when all of them are resends. -/
lemma Records.insertFixes_fixes_iff (h : Records db stored) (us : List Uplink) :
    (db.insertFixes us).fixes = db.fixes ↔ Covers stored us := by
  refine ⟨fun hsame => ?_, h.insertFixes_of_covers⟩
  induction us generalizing db with
  | nil => exact fun v hv => absurd hv List.not_mem_nil
  | cons u us ih =>
    obtain ⟨-, hnext⟩ | ⟨hno, hfirst⟩ := h.insertFix u
    · -- a row that is added stays
      obtain ⟨more, hmore⟩ := hnext.insertFixes_append us
      have hlength := hmore.length_fixes
      rw [show ((db.insertFix u).2.insertFixes us).fixes = db.fixes from hsame,
        h.length_fixes] at hlength
      simp only [List.length_append, List.length_singleton] at hlength
      omega
    · have hrest := ih (h.congr (congrArg _ hfirst)) (hsame.trans hfirst.symm)
      refine List.forall_mem_cons.mpr ⟨fun hfit => ?_, hrest⟩
      rw [h.insertFix_eq hfit] at hno
      simpa using hno

lemma isRepeat_iff {stored : List Uplink} {u : Uplink} :
    isRepeat stored u = true ↔
      ∃ v i, latest stored (pairOf u) = some (v, i) ∧ |u.tsMs - v.tsMs| ≤ DEDUP_WINDOW_MS := by
  rw [isRepeat, Option.any_eq_true]
  constructor
  · rintro ⟨⟨v, i⟩, hlatest, hclose⟩
    exact ⟨v, i, hlatest, of_decide_eq_true hclose⟩
  · rintro ⟨v, i, hlatest, hclose⟩
    exact ⟨(v, i), hlatest, decide_eq_true hclose⟩

/-- Once the fixes of a capture have been inserted, all of them are resends. -/
lemma Records.insertFixes (h : Records db stored) {us : List Uplink} (hclose : Close us) :
    ∃ stored', Records (db.insertFixes us) stored' ∧ Covers stored' us := by
  induction us using List.reverseRecOn with
  | nil => exact ⟨stored, h, fun v hv => absurd hv List.not_mem_nil⟩
  | append_singleton us u ih =>
    have hsub := List.sublist_append_left us [u]
    obtain ⟨stored', hrec, hcovers⟩ :=
      ih fun v hv w hw => hclose v (hsub.subset hv) w (hsub.subset hw)
    rw [insertFixes_concat]
    obtain ⟨hok, hnext⟩ | ⟨hno, hsame⟩ := hrec.insertFix u
    · refine ⟨stored' ++ [u], hnext, fun v hv hfit => ?_⟩
      rw [isRepeat_concat]
      split_ifs with hpair
      · exact decide_eq_true (hclose v hv u (by simp) hpair.symm)
      · rcases List.mem_append.mp hv with hv | hv
        · exact hcovers v hv hfit
        · exact absurd (congrArg pairOf (List.mem_singleton.mp hv).symm) hpair
    · refine ⟨stored', hrec.congr (congrArg _ hsame), fun v hv hfit => ?_⟩
      rcases List.mem_append.mp hv with hv | hv
      · exact hcovers v hv hfit
      · obtain rfl := List.mem_singleton.mp hv
        rw [hrec.insertFix_eq hfit] at hno
        simpa using hno

/-- What a run has stored fits. -/
lemma Records.fits (h : Records db stored) {run : List Attempt} (hu : u ∈ db.storedIn run) :
    bindParams (insertParams u) = .ok () := by
  induction run generalizing db stored with
  | nil => exact absurd hu List.not_mem_nil
  | cons a run ih =>
    rcases List.mem_append.mp hu with hu | hu
    · have hstep := h.storeStep a
      rw [Option.mem_toList.mp hu] at hstep
      generalize db.attempt a = db' at hstep
      cases hstep with
      | inserts _ _ inserted => exact bindParams_of_inserted inserted
    · exact ih (h.attempt a) hu

/-- A fix that has been stored is recognised when it comes again just when the latest fix with
its pair is within the window of it.  So a replayed capture adds no row just when this holds of
each of its fixes that can be bound, as it does of the second replay of a capture in which no
two fixes of one pair are further apart than the window. -/
theorem insertFix_resend_iff (run : List Attempt) :
    (∀ u ∈ Db.empty.storedIn run, ∃ v i, latest (Db.empty.storedIn run) (pairOf u) = some (v, i) ∧
      (((Db.empty.attempts run).insertFix u).1 = .ok false ∧
        ((Db.empty.attempts run).insertFix u).2.fixes = (Db.empty.attempts run).fixes ↔
          |u.tsMs - v.tsMs| ≤ DEDUP_WINDOW_MS)) ∧
    (∀ capture, ((Db.empty.attempts run).insertFixes capture).fixes =
        (Db.empty.attempts run).fixes ↔
      ∀ u ∈ capture, bindParams (insertParams u) = .ok () →
        ∃ v i, latest (Db.empty.storedIn run) (pairOf u) = some (v, i) ∧
          |u.tsMs - v.tsMs| ≤ DEDUP_WINDOW_MS) ∧
    ∀ capture, Close capture →
      (((Db.empty.attempts run).insertFixes capture).insertFixes capture).fixes =
        ((Db.empty.attempts run).insertFixes capture).fixes := by
  have h := records_run run
  refine ⟨fun u hu => ?_, fun capture => ?_, fun capture hclose => ?_⟩
  · obtain ⟨v, i, hlatest, -, -⟩ := exists_latest hu
    refine ⟨v, i, hlatest, ?_⟩
    have hrepeat : isRepeat (Db.empty.storedIn run) u =
        decide (|u.tsMs - v.tsMs| ≤ DEDUP_WINDOW_MS) := by
      rw [isRepeat, hlatest]
      rfl
    have hreturns := h.insertFix_eq (Records.empty.fits hu)
    rw [hrepeat] at hreturns
    constructor
    · rintro ⟨hfalse, -⟩
      simpa [hfalse] using hreturns
    · intro hclose
      obtain ⟨hok, -⟩ | ⟨-, hsame⟩ := h.insertFix u
      · simp [hok, hclose] at hreturns
      · exact ⟨by simpa [hclose] using hreturns, hsame⟩
  · simp only [h.insertFixes_fixes_iff, Covers, isRepeat_iff]
  · obtain ⟨stored', hrec, hcovers⟩ := h.insertFixes hclose
    exact hrec.insertFixes_of_covers hcovers

/-- A run that inserts the fix of one cycle and that of the next. -/
def wrapRun : List Attempt :=
  [⟨.insertFix beforeWrap, fun _ => false⟩, ⟨.insertFix afterWrap, fun _ => false⟩]

/-- The fix of the first cycle is stored again when it comes after that of the next, and a
capture of both doubles. -/
theorem insertFix_stores_again :
    ¬ (∀ run, ∀ u ∈ Db.empty.storedIn run,
      ((Db.empty.attempts run).insertFix u).1 = .ok false ∧
        ((Db.empty.attempts run).insertFix u).2.fixes = (Db.empty.attempts run).fixes) ∧
    ((Db.empty.insertFixes [beforeWrap, afterWrap]).insertFixes
      [beforeWrap, afterWrap]).fixes.length = 4 := by
  refine ⟨fun h => ?_, by decide +kernel⟩
  have hstored : beforeWrap ∈ Db.empty.storedIn wrapRun := by decide +kernel
  have hagain : ((Db.empty.attempts wrapRun).insertFix beforeWrap).2.fixes.length = 3 := by
    decide +kernel
  rw [(h wrapRun beforeWrap hstored).2] at hagain
  exact absurd hagain (by decide +kernel)

/-- The theorem at that run: the fix of the second cycle is recognised, and a capture of the
first one alone adds nothing the second time. -/
theorem insertFix_resend_iff_wrap :
    (∃ v i, latest (Db.empty.storedIn wrapRun) (pairOf afterWrap) = some (v, i) ∧
      (((Db.empty.attempts wrapRun).insertFix afterWrap).1 = .ok false ∧
        ((Db.empty.attempts wrapRun).insertFix afterWrap).2.fixes =
          (Db.empty.attempts wrapRun).fixes ↔ |afterWrap.tsMs - v.tsMs| ≤ DEDUP_WINDOW_MS)) ∧
    (((Db.empty.attempts wrapRun).insertFixes [beforeWrap]).insertFixes [beforeWrap]).fixes =
      ((Db.empty.attempts wrapRun).insertFixes [beforeWrap]).fixes :=
  ⟨(insertFix_resend_iff wrapRun).1 afterWrap (by decide +kernel),
    (insertFix_resend_iff wrapRun).2.2 [beforeWrap] (by unfold Close; decide +kernel)⟩

end SrtGateway.Store
