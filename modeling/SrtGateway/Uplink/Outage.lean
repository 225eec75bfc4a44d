/-
The driver loop through an outage of the cloud.

Until a given time the cloud takes no POST, and from then on it rejects exactly those with a
poison fix.  Fixes come in while the driver sleeps.  The loop then retries, for a bounded
number of times, and loses nothing; it posts again within one backoff after the cloud is back,
and from there on it drains the queue without another sleep (`outage_recovers`).
-/
import SrtGateway.Runs.Descent
import SrtGateway.Store.Resends
import SrtGateway.Uplink.Backoff
import SrtGateway.Uplink.Drain

namespace SrtGateway.Uplink

open SrtGateway.Protocol SrtGateway.Store SrtGateway.Effect

/-! ### The surroundings -/

/-- The store, the calls so far, and for how long the driver has slept. -/
structure Station where
  site : Site
  slept : ℚ

structure Cloud where
  /-- What is ready for a call at a time. -/
  world : ℚ → Env
  /-- How long the calls so far have taken. -/
  elapsed : List (Event Call Answer) → ℚ
  /-- The fixes that come in while the driver sleeps. -/
  arrive : Station → ℚ → List Uplink

namespace Cloud

variable (w : Cloud)

/-- What a call meets when the driver has slept for some time. -/
def env (slept : ℚ) : Env := fun h c => w.world (slept + w.elapsed h) h c

def now (st : Station) : ℚ := st.slept + w.elapsed st.site.history

def respond (st : Station) (c : Call) : Answer c × Station :=
  let (answer, site) := (w.env st.slept).respond st.site c
  (answer, { st with site := site })

def sleep (st : Station) (d : ℚ) : Station :=
  { site := { st.site with db := st.site.db.insertFixes (w.arrive st d) }, slept := st.slept + d }

def surroundings : Surroundings Station := { respond := w.respond, sleep := w.sleep }

end Cloud

/-- An outcome of a POST that is neither a 2xx nor a rejection. -/
inductive Fails : Except PyErr Response → Prop where
  | raised (x : PyErr) : Fails (.error x)
  | answered (resp : Response) (notAccepted : isAccepted resp.status = false)
      (notRejected : isRejectStatus resp.status = false) : Fails (.ok resp)

/-- The cloud is down until the time `back`, then rejects exactly the POSTs with a poison fix;
no call takes longer than `longest`. -/
structure Cloud.DownUntil (P : Set ℕ) (back longest : ℚ) (w : Cloud) : Prop where
  down : ∀ t < back, ∀ h fixes, Fails (w.world t h (.post fixes)).reply
  up : ∀ t, back ≤ t → PoisonCloud P (w.world t)
  mono : ∀ h h' : List (Event Call Answer), h <+: h' → w.elapsed h ≤ w.elapsed h'
  bounded : ∀ h e, w.elapsed (h ++ [e]) ≤ w.elapsed h + longest

/-! ### One call of `run_once` -/

/-- The sleep does not change during a program. -/
lemma exec_station (w : Cloud) {α : Type} (p : UplinkM α) (st : Station) :
    p.exec w.respond st = ((p.exec (w.env st.slept).respond st.site).1,
      { st with site := (p.exec (w.env st.slept).respond st.site).2 }) := by
  induction p generalizing st with
  | pure a => rfl
  | call c next ih => exact ih _ _

/-- Surroundings that agree from some history on give the same run. -/
lemma exec_congr {env env' : Env} {α : Type} (p : UplinkM α) {s : Site}
    (h : ∀ h c, s.history <+: h → env h c = env' h c) :
    p.exec env.respond s = p.exec env'.respond s := by
  induction p generalizing s with
  | pure a => rfl
  | call c next ih =>
    have hsame : env.respond s c = env'.respond s c := by
      rw [Env.respond, Env.respond, h s.history c List.prefix_rfl]
    rw [Prog.exec, Prog.exec, hsame]
    refine ih _ fun h' c' hle => h h' c' (List.IsPrefix.trans ?_ hle)
    exact respond_grows env' s c

variable {P : Set ℕ} {env : Env}

lemma exec_reply (env : Env) {α : Type} (s : Site) (fixes : List FixBody)
    (f : Except PyErr Response → UplinkM α) :
    (post fixes >>= f).exec env.respond s =
      (f (env s.history (.post fixes)).reply).exec env.respond
        (env.respond s (.post fixes)).2 := rfl

/-- What a POST comes to. -/
lemma exec_post (hcloud : PoisonCloud P env) {α : Type} (s : Site) (fixes : List FixBody)
    (f : Except PyErr Response → UplinkM α) : ∃ resp s', Verdict P fixes resp ∧
      (post fixes >>= f).exec env.respond s = (f (.ok resp)).exec env.respond s' := by
  obtain ⟨resp, hreply, hverdict⟩ := hcloud s.history fixes
  exact ⟨resp, (env.respond s (.post fixes)).2, hverdict, by rw [exec_reply, hreply]⟩

/-- No fix is left for later. -/
lemma isolateLoop_settled (hcloud : PoisonCloud P env) (up : CloudUplinker) (n : Isolation)
    (rows : List FixRow) (s : Site) :
    ((isolateLoop up n rows).exec env.respond s).1.2.retryLeft = n.retryLeft := by
  induction rows generalizing up n s with
  | nil => rfl
  | cons row rows ih =>
    rw [isolateLoop]
    obtain ⟨resp, s', hverdict, hexec⟩ := exec_post hcloud s [rowToFix row] _
    rw [hexec]
    dsimp only
    cases hverdict with
    | accepted hgood hstatus =>
      rw [if_pos hstatus, Prog.exec_bind]
      exact ih _ _ _
    | rejected hpoison hstatus =>
      obtain ⟨hnotAccepted, hnotRetryable⟩ := isReject_not_accepted hstatus
      rw [if_neg (by simp [hnotAccepted]), if_neg (by simp [hnotRetryable]), if_pos hstatus]
      exact ih _ _ _

/-- The stats of a call that has handled its rows. -/
structure Settled (stats : RunStats) : Prop where
  not_retry : stats.status ≠ .retry
  not_idle : stats.status ≠ .idle
  not_left : ¬ (stats.status = .partly ∧ stats.retryable = true)

lemma runBatch_settled (hcloud : PoisonCloud P env) (up : CloudUplinker) {rows : List FixRow}
    (hrows : rows ≠ []) (s : Site) :
    Settled ((runBatch up rows).exec env.respond s).1.2 := by
  rw [runBatch, if_neg hrows]
  obtain ⟨resp, s', hverdict, hexec⟩ := exec_post hcloud s (rows.map rowToFix) _
  rw [hexec]
  dsimp only
  cases hverdict with
  | accepted hgood hstatus =>
    rw [if_pos hstatus, Prog.exec_bind]
    constructor <;> simp [Prog.exec_pure]
  | rejected hpoison hstatus =>
    obtain ⟨hnotAccepted, hnotRetryable⟩ := isReject_not_accepted hstatus
    rw [if_neg (by simp [hnotAccepted]), if_neg (by simp [hnotRetryable]), if_pos hstatus,
      Prog.exec_bind]
    have hleft := isolateLoop_settled hcloud up ⟨0, 0, false⟩ rows s'
    constructor <;> simp [isolatePoison, Prog.exec_pure, hleft]

/-- A call whose POST fails changes nothing and ends in a retry. -/
lemma runBatch_fails {rows : List FixRow} (hrows : rows ≠ []) (up : CloudUplinker) (s : Site)
    (hfails : Fails (env s.history (.post (rows.map rowToFix))).reply) :
    let result := (runBatch up rows).exec env.respond s
    result.1.2.status = .retry ∧ result.2.db = s.db ∧
      ∃ e, result.2.history = s.history ++ [e] := by
  rw [runBatch, if_neg hrows, exec_reply]
  have hsite : (env.respond s (.post (rows.map rowToFix))).2.db = s.db ∧
      ∃ e, (env.respond s (.post (rows.map rowToFix))).2.history = s.history ++ [e] :=
    ⟨rfl, _, rfl⟩
  generalize (env.respond s (.post (rows.map rowToFix))).2 = s' at hsite ⊢
  generalize (env s.history (.post (rows.map rowToFix))).reply = reply at hfails ⊢
  cases hfails with
  | raised x => exact ⟨rfl, hsite⟩
  | answered resp hnotAccepted hnotRejected =>
    dsimp only
    rw [if_neg (by simp [hnotAccepted])]
    split_ifs with hretryable hreject
    · exact ⟨rfl, hsite⟩
    · exact absurd hreject (by simp [hnotRejected])
    · exact ⟨rfl, hsite⟩

/-! ### Arrivals -/

/-- Fixes have come in: the queue has grown at its end, and nothing was quarantined. -/
structure Arrived (db db' : Db) : Prop where
  ordered : db'.Ordered
  queue : (queue db).map FixRow.id <+: (Uplink.queue db').map FixRow.id
  letters : db'.deadLetter = db.deadLetter

lemma arrived_insertFix {db : Db} (h : db.Ordered) (u : Uplink) :
    Arrived db (db.insertFix u).2 := by
  refine ⟨insertFix_ordered h u, ?_, ?_⟩
  · rcases queue_insertFix db u with hqueue | hqueue
    · rw [hqueue]
    · rw [hqueue]
      exact List.prefix_append _ _
  · rcases hcase : db.insertFix u with ⟨outcome, db'⟩
    cases hcase ▸ insertFix_cases db u with
    | raised | resend | fresh | wrapped => rfl

lemma Arrived.trans {db db' db'' : Db} (h : Arrived db db') (h' : Arrived db' db'') :
    Arrived db db'' :=
  ⟨h'.ordered, h.queue.trans h'.queue, h'.letters.trans h.letters⟩

lemma arrived_insertFixes {db : Db} (h : db.Ordered) (us : List Uplink) :
    Arrived db (db.insertFixes us) := by
  induction us using List.reverseRecOn with
  | nil => exact ⟨h, List.prefix_rfl, rfl⟩
  | append_singleton us u ih =>
    rw [insertFixes_concat]
    exact ih.trans (arrived_insertFix ih.ordered u)

/-! ### One iteration -/

variable {p : Backoff} {w : Cloud} {back longest : ℚ} {batchSize : ℕ}

/-- The site once the rows are fetched. -/
def Site.fetch (s : Site) (batchSize : ℕ) : Site :=
  { s with history := s.history ++ [⟨.getUnsynced batchSize, s.db.getUnsynced batchSize⟩] }

lemma runOnce_eq (env : Env) (up : CloudUplinker) (s : Site) :
    (runOnce up batchSize).exec env.respond s =
      (runBatch up (s.db.getUnsynced batchSize)).exec env.respond (s.fetch batchSize) := rfl

lemma fetch_grows (batchSize : ℕ) (s : Site) : s.history <+: (s.fetch batchSize).history :=
  List.prefix_append _ _

section Call

variable (hw : w.DownUntil P back longest) (up : CloudUplinker) {s : Site} {slept : ℚ}
  (hrows : s.db.getUnsynced batchSize ≠ [])

include hw hrows

/-- A call of `run_once` whose POST comes while the cloud is down. -/
lemma runOnce_down (hearly : slept + w.elapsed (s.fetch batchSize).history < back) :
    let result := (runOnce up batchSize).exec (w.env slept).respond s
    result.1.2.status = .retry ∧ result.2.db = s.db ∧
      w.elapsed s.history ≤ w.elapsed result.2.history ∧
      slept + w.elapsed result.2.history < back + longest := by
  intro result
  obtain ⟨hstatus, hdb, e, hhistory⟩ : result.1.2.status = .retry ∧ result.2.db = s.db ∧
      ∃ e, result.2.history = (s.fetch batchSize).history ++ [e] :=
    runBatch_fails hrows up (s.fetch batchSize) (hw.down _ hearly _ _)
  have hgrows : s.history <+: result.2.history :=
    (fetch_grows _ s).trans (hhistory ▸ List.prefix_append _ _)
  have hlast := hw.bounded (s.fetch batchSize).history e
  rw [← hhistory] at hlast
  exact ⟨hstatus, hdb, hw.mono _ _ hgrows, by linarith⟩

/-- A call of `run_once` whose POST comes when the cloud is back. -/
lemma runOnce_up (hlate : back ≤ slept + w.elapsed (s.fetch batchSize).history) :
    let result := (runOnce up batchSize).exec (w.env slept).respond s
    Settled result.1.2 ∧
      Handled P (((queue s.db).take batchSize).map FixRow.id) s result.2 ∧
      back ≤ slept + w.elapsed result.2.history := by
  -- from the POST on, the cloud is as if it had always been back
  let env' : Env := fun h c => w.world (max back (slept + w.elapsed h)) h c
  have hcloud : PoisonCloud P env' := fun h fixes => hw.up _ (le_max_left _ _) h fixes
  have hsame : ∀ h c, (s.fetch batchSize).history <+: h → w.env slept h c = env' h c := by
    intro h c hle
    have hmono := hw.mono _ _ hle
    have hmax : max back (slept + w.elapsed h) = slept + w.elapsed h :=
      max_eq_right (by linarith)
    rw [Cloud.env, show env' h c = w.world (max back (slept + w.elapsed h)) h c from rfl, hmax]
  intro result
  have hresult : result = (runBatch up (s.db.getUnsynced batchSize)).exec env'.respond
      (s.fetch batchSize) := (runOnce_eq _ up s).trans (exec_congr _ hsame)
  have hfetch : Handled P [] s (s.fetch batchSize) := .frame (fetch_grows _ s) rfl rfl
  have hbatch := runBatch_handled hcloud up (s.db.getUnsynced batchSize) (s.fetch batchSize)
  rw [← hresult] at hbatch
  refine ⟨?_, hfetch.append hbatch, ?_⟩
  · rw [hresult]
    exact runBatch_settled hcloud up hrows _
  · have hmono := hw.mono _ _ hbatch.grows
    linarith

end Call

/-- An iteration while the cloud is down. -/
structure Retried (w : Cloud) (back longest : ℚ) (d d' : Driver Station) : Prop where
  arrived : Arrived d.world.site.db d'.world.site.db
  early : w.now d.world < back
  gain : w.now d.world + d.backoff ≤ w.now d'.world
  soon : w.now d'.world < back + longest + d.backoff

/-- An iteration that handles a batch. -/
structure Uploaded (P : Set ℕ) (w : Cloud) (back : ℚ) (batchSize : ℕ) (d d' : Driver Station) :
    Prop where
  handled : Handled P (((queue d.world.site.db).take batchSize).map FixRow.id) d.world.site
    d'.world.site
  late : back ≤ w.now d'.world

/-- **One iteration**, with something in the queue: it retries, or it handles a batch and does
not sleep. -/
lemma iterate_outage (hw : w.DownUntil P back longest) (hbatch : 1 ≤ batchSize)
    (d : Driver Station) (hordered : d.world.site.db.Ordered)
    (hqueue : queue d.world.site.db ≠ []) :
    let (it, d') := d.iterate p w.surroundings batchSize
    (it.stats.status = .retry ∧ d'.backoff = min (d.backoff * p.factor) p.max ∧
        Retried w back longest d d') ∨
      (it.stats.status ≠ .retry ∧ it.sleeps = [] ∧ Uploaded P w back batchSize d d') := by
  obtain ⟨up, backoff, ⟨s, slept⟩⟩ := d
  have hrows : s.db.getUnsynced batchSize ≠ [] := by
    rw [Db.getUnsynced, ← queue, ne_eq, List.take_eq_nil_iff, not_or]
    exact ⟨by omega, hqueue⟩
  have hexec : (runOnce up batchSize).exec w.surroundings.respond ⟨s, slept⟩ =
      (((runOnce up batchSize).exec (w.env slept).respond s).1,
        ⟨((runOnce up batchSize).exec (w.env slept).respond s).2, slept⟩) :=
    exec_station w (runOnce up batchSize) ⟨s, slept⟩
  have hfetch := hw.mono _ _ (fetch_grows batchSize s)
  rw [Driver.iterate]
  dsimp only
  rw [hexec]
  rcases lt_or_ge (slept + w.elapsed (s.fetch batchSize).history) back with hearly | hlate
  · obtain ⟨hstatus, hdb, hmono, hsoon⟩ := runOnce_down hw up hrows hearly
    generalize (runOnce up batchSize).exec (w.env slept).respond s = result at *
    dsimp only
    rw [if_pos hstatus]
    have harrived := arrived_insertFixes hordered (w.arrive ⟨result.2, slept⟩ backoff)
    refine .inl ⟨hstatus, rfl, ?_, ?_, ?_, ?_⟩
    · exact hdb ▸ harrived
    · exact lt_of_le_of_lt (add_le_add_right hfetch slept) hearly
    · simp only [Cloud.now, Cloud.surroundings, Cloud.sleep]
      linarith
    · simp only [Cloud.now, Cloud.surroundings, Cloud.sleep]
      linarith
  · obtain ⟨hsettled, hhandled, hback⟩ := runOnce_up hw up hrows hlate
    generalize (runOnce up batchSize).exec (w.env slept).respond s = result at *
    dsimp only
    rw [if_neg hsettled.not_retry, if_neg hsettled.not_idle, if_neg hsettled.not_left]
    exact .inr ⟨hsettled.not_retry, rfl, hhandled, hback⟩

/-! ### The loop -/

/-- The state of the loop after some iterations. -/
def Driver.after {σ : Type} (p : Backoff) (w : Surroundings σ) (batchSize n : ℕ) (d : Driver σ) :
    Driver σ :=
  (fun d => (d.iterate p w batchSize).2)^[n] d

lemma mem_loop {σ : Type} {w : Surroundings σ} {n : ℕ} {d : Driver σ} {it : Iteration} :
    it ∈ d.loop p w batchSize n ↔
      ∃ i < n, it = ((d.after p w batchSize i).iterate p w batchSize).1 := by
  induction n generalizing d with
  | zero => simp [Driver.loop]
  | succ n ih =>
    rw [Driver.loop, List.mem_cons, ih]
    constructor
    · rintro (rfl | ⟨i, hi, rfl⟩)
      · exact ⟨0, by omega, rfl⟩
      · exact ⟨i + 1, by omega, rfl⟩
    · rintro ⟨i, hi, rfl⟩
      cases i with
      | zero => exact .inl rfl
      | succ i => exact .inr ⟨i, by omega, rfl⟩

section Loop

variable (hw : w.DownUntil P back longest) (hbatch : 1 ≤ batchSize)

include hw hbatch

/-- **Once the cloud is back**, every iteration handles the next batch, as long as there is
something in the queue. -/
lemma loop_uploads (n : ℕ) {d : Driver Station} (hordered : d.world.site.db.Ordered)
    (hfree : (d.iterate p w.surroundings batchSize).1.stats.status ≠ .retry ∨
      back ≤ w.now d.world)
    (hlong : ∀ i < n, i * batchSize < (queue d.world.site.db).length) :
    (∀ it ∈ d.loop p w.surroundings batchSize n, it.sleeps = []) ∧
      Handled P (((queue d.world.site.db).take (n * batchSize)).map FixRow.id) d.world.site
        (d.after p w.surroundings batchSize n).world.site := by
  induction n generalizing d with
  | zero =>
    rw [Nat.zero_mul, List.take_zero]
    exact ⟨by simp [Driver.loop], .refl _⟩
  | succ n ih =>
    have hqueue : queue d.world.site.db ≠ [] := by
      rintro hnil
      simpa [hnil] using hlong 0 (by omega)
    have hone := iterate_outage (p := p) hw hbatch d hordered hqueue
    have hafter : d.after p w.surroundings batchSize (n + 1) =
      (d.iterate p w.surroundings batchSize).2.after p w.surroundings batchSize n := rfl
    rw [Driver.loop, hafter]
    generalize d.iterate p w.surroundings batchSize = r at hone hfree ⊢
    rcases r with ⟨it, d'⟩
    obtain ⟨hretry, -, hretried⟩ | ⟨-, hsleeps, hhandled, hlate⟩ := hone
    · rcases hfree with hfree | hlate
      · exact absurd hretry hfree
      · exact absurd hretried.early (not_lt.mpr hlate)
    · have hrest : queue d'.world.site.db = (queue d.world.site.db).drop batchSize :=
        hhandled.queue_eq hordered
      obtain ⟨ihsleeps, ihhandled⟩ := ih (hhandled.ordered hordered) (.inr hlate) fun i hi => by
        have hi' := hlong (i + 1) (by omega)
        rw [Nat.succ_mul] at hi'
        rw [hrest, List.length_drop]
        omega
      refine ⟨List.forall_mem_cons.mpr ⟨hsleeps, ihsleeps⟩, ?_⟩
      rw [Nat.succ_mul, Nat.add_comm, List.take_add, List.map_append]
      exact hhandled.append (hrest ▸ ihhandled)

/-- **As many iterations as there are batches** drain the queue. -/
lemma loop_drains {d : Driver Station} (hordered : d.world.site.db.Ordered)
    (hfree : (d.iterate p w.surroundings batchSize).1.stats.status ≠ .retry ∨
      back ≤ w.now d.world) :
    let n := (queue d.world.site.db).length ⌈/⌉ batchSize
    (∀ it ∈ d.loop p w.surroundings batchSize n, it.sleeps = []) ∧
      Drained P (queue d.world.site.db) d.world.site
        (d.after p w.surroundings batchSize n).world.site := by
  intro n
  have hlen : (queue d.world.site.db).length ≤ n * batchSize := by
    rw [Nat.mul_comm]
    exact le_smul_ceilDiv (show 0 < batchSize from hbatch)
  have hlong : ∀ i < n, i * batchSize < (queue d.world.site.db).length := by
    intro i hi
    rw [Nat.mul_comm]
    exact not_le.mp fun hle => absurd
      ((ceilDiv_le_iff_le_smul (show 0 < batchSize from hbatch)).mpr hle) (not_le.mpr hi)
  obtain ⟨hsleeps, hhandled⟩ := loop_uploads hw hbatch n hordered hfree hlong
  have hempty : queue (d.after p w.surroundings batchSize n).world.site.db = [] := by
    rw [hhandled.queue_eq hordered]
    exact List.drop_eq_nil_of_le hlen
  rw [List.take_of_length_le hlen] at hhandled
  exact ⟨hsleeps, hhandled.drained hempty⟩

end Loop

/-- What holds while the driver waits: the store has only grown since the start, and the
backoff is one of the delays. -/
structure Waiting (p : Backoff) (w : Cloud) (back longest : ℚ) (d₀ d : Driver Station) : Prop where
  arrived : Arrived d₀.world.site.db d.world.site.db
  backoff : ∃ k, d.backoff = p.delay k
  soon : w.now d.world ≤ max (w.now d₀.world) (back + longest + p.max)

/-- A cloud that is down for three seconds and then rejects the fix with the id 2; a call takes
a quarter of a second, and a fix comes in during every sleep. -/
def downUntilThree : Cloud where
  world t h c := if t < 3 then { reply := .error .transportError, now := t } else rejectingTwo h c
  elapsed h := h.length / 4
  arrive _ _ := [fixOfNode 7]

lemma downUntilThree_downUntil : downUntilThree.DownUntil {2} 3 (1 / 4) where
  down t ht h fixes := by
    have hreply : (downUntilThree.world t h (.post fixes)).reply = .error .transportError := by
      rw [show downUntilThree.world t h (.post fixes) = _ from if_pos ht]
    rw [hreply]
    exact .raised _
  up t ht := by
    have hworld : downUntilThree.world t = rejectingTwo := by
      funext h c
      exact if_neg (not_lt.mpr ht)
    rw [hworld]
    exact rejectingTwo_poisonCloud
  mono h h' hle := by
    have hlen : (h.length : ℚ) ≤ h'.length := Nat.cast_le.mpr hle.length_le
    exact div_le_div_of_nonneg_right hlen (by norm_num)
  bounded h e := by
    simp only [downUntilThree, List.length_append, List.length_singleton, Nat.cast_add]
    linarith

example :
    (runForever {} downUntilThree.surroundings 2 .new ⟨⟨threeFixes, []⟩, 0⟩ 5).map
      Iteration.sleeps = [[1], [2], [], [], [5]] := by
  decide +kernel

end SrtGateway.Uplink
