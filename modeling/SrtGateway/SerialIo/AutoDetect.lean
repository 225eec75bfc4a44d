/-
Which device each attempt to open uses.

`_open` stores the device it found in `port`, the field that holds the configured path, and
`find_base_port` returns a configured path as it is.  A reader created with no port is
therefore a latch: the first device it finds is the one it uses from then on
(`cycles_follows`), and it re-detects the device on every attempt exactly when detection
keeps giving that same device (`redetects_iff_never_moves`).
-/
import SrtGateway.SerialIo.Outage

namespace SrtGateway.SerialIo

variable {α δ : Type}

/-! ### Latches -/

/-- The values in use when `ds` are offered one after another and the first one there is is
kept; `m` is what is kept already. -/
def latch : Option α → List (Option α) → List (Option α)
  | _, [] => []
  | m, d :: ds => m.or d :: latch (m.or d) ds

lemma latch_append (m : Option α) (as bs : List (Option α)) :
    latch m (as ++ bs) = latch m as ++ latch (as.foldl Option.or m) bs := by
  induction as generalizing m with
  | nil => rfl
  | cons a as ih => simp [latch, ih]

lemma latch_some (a : α) (ds : List (Option α)) : latch (some a) ds = ds.map fun _ => some a := by
  induction ds with
  | nil => rfl
  | cons d ds ih => simp [latch, ih]

/-- A latch gives back what is offered exactly when nothing else is offered after the first
value. -/
lemma latch_none_eq_self_iff (ds : List (Option α)) :
    latch none ds = ds ↔ ds.Pairwise fun earlier later => earlier.isSome → later = earlier := by
  induction ds with
  | nil => simp [latch]
  | cons d ds ih =>
    rw [List.pairwise_cons]
    cases d with
    | none => simp [latch, ih]
    | some a =>
      simp only [latch, Option.none_or, latch_some, List.cons.injEq, true_and, Option.isSome_some,
        forall_const]
      constructor
      · intro h
        have hall : ∀ d ∈ ds, d = some a := by
          intro d hd
          rw [← h] at hd
          obtain ⟨_, _, rfl⟩ := List.mem_map.mp hd
          rfl
        refine ⟨hall, List.pairwise_of_forall_mem_list fun x hx y hy _ => ?_⟩
        rw [hall x hx, hall y hy]
      · rintro ⟨hall, -⟩
        rw [List.map_congr_left (g := id) fun d hd => (hall d hd).symm, List.map_id]

/-! ### What detection finds -/

/-- `dev` is the smallest match of the first pattern with a match. -/
def IsFirstMatch (globs : List String) (globber : String → List String) (dev : String) : Prop :=
  ∃ before pattern after, globs = before ++ pattern :: after ∧
    (∀ p ∈ before, globber p = []) ∧ dev ∈ globber pattern ∧ ∀ d ∈ globber pattern, dev ≤ d

lemma head?_sorted {ds : List String} {dev : String}
    (h : (ds.mergeSort fun a b => decide (a ≤ b)).head? = some dev) :
    dev ∈ ds ∧ ∀ d ∈ ds, dev ≤ d := by
  have hsorted := @List.pairwise_mergeSort String (fun a b => decide (a ≤ b))
    (fun a b c hab hbc => by simpa using le_trans (of_decide_eq_true hab) (of_decide_eq_true hbc))
    (fun a b => by simpa using le_total a b) ds
  obtain ⟨rest, hrest⟩ := List.head?_eq_some_iff.mp h
  have hmem : ∀ d, d ∈ ds ↔ d = dev ∨ d ∈ rest := by
    intro d
    rw [← @List.mem_mergeSort String (fun a b => decide (a ≤ b)), hrest, List.mem_cons]
  rw [hrest, List.pairwise_cons] at hsorted
  refine ⟨(hmem dev).mpr (.inl rfl), fun d hd => ?_⟩
  rcases (hmem d).mp hd with rfl | hd
  · exact le_rfl
  · exact of_decide_eq_true (hsorted.1 d hd)

lemma detect_isFirstMatch {globs : List String} {globber : String → List String} {dev : String}
    (h : detect globs globber = some dev) : IsFirstMatch globs globber dev := by
  obtain ⟨before, pattern, after, rfl, hdev, hbefore⟩ := List.findSome?_eq_some_iff.mp h
  refine ⟨before, pattern, after, rfl, fun p hp => ?_, head?_sorted hdev⟩
  have hnone := hbefore p hp
  rwa [List.head?_eq_none_iff, ← List.length_eq_zero_iff, List.length_mergeSort,
    List.length_eq_zero_iff] at hnone

lemma detect_eq_none_iff {globs : List String} {globber : String → List String} :
    detect globs globber = none ↔ ∀ pattern ∈ globs, globber pattern = [] := by
  rw [detect, List.findSome?_eq_none_iff]
  refine forall₂_congr fun pattern _ => ?_
  rw [List.head?_eq_none_iff, ← List.length_eq_zero_iff, List.length_mergeSort,
    List.length_eq_zero_iff]

/-- No device has the empty path. -/
lemma truthy_detect (globs : List String) (e : OpenEnv) :
    truthy (detect globs e.globber) = detect globs e.globber := by
  cases h : detect globs e.globber with
  | none => rfl
  | some dev =>
    obtain ⟨_, pattern, _, -, -, hdev, -⟩ := detect_isFirstMatch h
    have hne : dev ≠ "" := fun h0 => e.globber_ne pattern (h0 ▸ hdev)
    simp [truthy, hne]

/-! ### The port is a latch -/

/-- The attempts that went for a real port, with the devices they used. -/
def opened (link : List LinkEvent) : List (OpenEnv × Option String) :=
  link.filterMap fun ev => match ev with
    | .openDevice e dev => some (e, dev)
    | _ => none

/-- The attempts of a whole run that went for a real port. -/
def runOpened (cs : List (Cycle δ)) : List (OpenEnv × Option String) :=
  cs.flatMap fun c => opened c.result.link

/-- What detection gives at each attempt. -/
def detected (globs : List String) (log : List (OpenEnv × Option String)) :
    List (Option String) :=
  log.map fun a => detect globs a.1.globber

/-- The attempts in `log` use the devices that the port, as a latch, gives them, and turn
`port` into `port'`. -/
structure Follows (globs : List String) (port : Option String)
    (log : List (OpenEnv × Option String)) (port' : Option String) : Prop where
  used : log.map Prod.snd = latch port (detected globs log)
  left : port' = (detected globs log).foldl Option.or port

variable {globs : List String}

lemma Follows.nil (port : Option String) : Follows globs port [] port := ⟨rfl, rfl⟩

lemma Follows.append {p₁ p₂ p₃ : Option String} {log₁ log₂ : List (OpenEnv × Option String)}
    (h₁ : Follows globs p₁ log₁ p₂) (h₂ : Follows globs p₂ log₂ p₃) :
    Follows globs p₁ (log₁ ++ log₂) p₃ := by
  obtain ⟨hu₁, rfl⟩ := h₁
  obtain ⟨hu₂, rfl⟩ := h₂
  constructor
  · rw [List.map_append, hu₁, hu₂, detected, detected, detected, List.map_append, latch_append]
  · rw [detected, detected, detected, List.map_append, List.foldl_append]

@[simp] lemma opened_append (as bs : List LinkEvent) :
    opened (as ++ bs) = opened as ++ opened bs := by
  simp [opened]

lemma opened_slept (o : Option ℚ) :
    opened (o.toList.map LinkEvent.sleep ++ [.attempt]) = [] := by
  cases o <;> rfl

/-- A stored port is a usable one. -/
def PortOk (port : Option String) : Prop := truthy port = port

lemma PortOk.foldl {port : Option String} (h : PortOk port) (log : List (OpenEnv × Option String)) :
    PortOk ((detected globs log).foldl Option.or port) := by
  induction log generalizing port with
  | nil => exact h
  | cons a log ih =>
    refine ih ?_
    cases port with
    | none => exact truthy_detect globs a.1
    | some p => exact h

lemma findBasePort_eq_or {port : Option String} (h : PortOk port) (e : OpenEnv) :
    truthy (findBasePort port globs e.globber) = port.or (detect globs e.globber) := by
  cases port with
  | none => exact truthy_detect globs e
  | some p => rw [findBasePort, h, Option.some_or, h]

/-- **One attempt**: without a factory, `_open` uses the stored port if there is one, else
the device found now, which it stores. -/
lemma open_follows {cfg : Settings} (hcfg : cfg.hasFactory = false) {r : SerialReader}
    (hport : PortOk r.port) (e : OpenEnv) :
    Follows cfg.portGlobs r.port (opened (r.open_ cfg e).2.2) (r.open_ cfg e).2.1.port := by
  rw [SerialReader.open_, hcfg, if_neg Bool.false_ne_true]
  split
  · exact .nil _
  · split
    · exact .nil _
    · rw [findBasePort_eq_or hport]
      cases hdev : r.port.or (detect cfg.portGlobs e.globber) with
      | none =>
        refine ⟨by simp [opened, detected, latch, hdev], ?_⟩
        rw [Option.or_eq_none_iff] at hdev
        simp [opened, detected, hdev]
      | some dev =>
        dsimp only
        split <;> exact ⟨by simp [opened, detected, latch, hdev], by simp [opened, detected, hdev]⟩

lemma reconnectLoop_follows {cfg : Settings} (hcfg : cfg.hasFactory = false) (firstEver : Bool)
    (es : List OpenEnv) : ∀ (attempt : ℕ) (r : SerialReader), PortOk r.port →
      let result := reconnectLoop cfg firstEver attempt es r
      Follows cfg.portGlobs r.port (opened result.2.2) result.2.1.port := by
  induction es with
  | nil => exact fun _ r _ => .nil r.port
  | cons e es ih =>
    intro attempt r hport
    have hopen := open_follows hcfg hport e
    simp only [reconnectLoop]
    split
    · exact .nil _
    · split
      · exact .nil _
      · -- an attempt is made
        rcases hres : r.open_ cfg e with ⟨x | _, r', evs⟩ <;> rw [hres] at hopen
        · have hport' : PortOk r'.port := by
            rw [hopen.left]
            exact hport.foldl _
          have hrest := ih (attempt + 1) { r' with lastError := some x } hport'
          rw [opened_append, opened_append, opened_slept]
          exact hopen.append hrest
        · rw [opened_append, opened_slept]
          exact hopen

lemma readCycle_port (H : Handlers δ) (r : SerialReader) (read : Except PyErr (List UInt8)) :
    (r.readCycle H read).reader.port = r.port ∧ (r.readCycle H read).link = [] := by
  unfold SerialReader.readCycle
  split
  · exact ⟨rfl, rfl⟩
  · split
    · split <;> exact ⟨rfl, rfl⟩
    · split <;> exact ⟨rfl, rfl⟩

/-- **One cycle** of `poll_once`. -/
lemma pollOnce_follows {cfg : Settings} (hcfg : cfg.hasFactory = false) (H : Handlers δ)
    {r : SerialReader} (hport : PortOk r.port) (env : PollEnv) :
    Follows cfg.portGlobs r.port (opened (r.pollOnce cfg H env).link)
      (r.pollOnce cfg H env).reader.port := by
  have hread := fun r' : SerialReader => readCycle_port H r' env.read
  unfold SerialReader.pollOnce
  split
  · have hloop : Follows cfg.portGlobs r.port (opened (r.reconnect cfg env.attempts).2.2)
        (r.reconnect cfg env.attempts).2.1.port :=
      reconnectLoop_follows hcfg _ env.attempts 0 r hport
    generalize r.reconnect cfg env.attempts = result at hloop ⊢
    rcases result with ⟨⟨_ | _⟩ | _ | _, r', evs⟩
    · exact hloop
    · simpa [hread r'] using hloop
    · exact hloop
    · exact hloop
  · rw [(hread r).1, (hread r).2]
    exact .nil _

/-- **A whole run**: the reader uses the devices that a latch gives it. -/
lemma cycles_follows {cfg : Settings} (hcfg : cfg.hasFactory = false) (H : Handlers δ)
    (envs : List PollEnv) {r : SerialReader} (hport : PortOk r.port) :
    ∃ port', Follows cfg.portGlobs r.port (runOpened (cycles cfg H r envs)) port' := by
  induction envs generalizing r with
  | nil => exact ⟨_, .nil _⟩
  | cons env envs ih =>
    have hpoll := pollOnce_follows hcfg H hport env
    have hport' : PortOk (r.pollOnce cfg H env).reader.port := by
      rw [hpoll.left]
      exact hport.foldl _
    obtain ⟨port', hrest⟩ := ih hport'
    simp only [cycles]
    split
    · exact ⟨port', hpoll.append hrest⟩
    · exact ⟨_, hpoll.append (.nil _)⟩

/-! ### Re-detection -/

/-- What `_reconnect` promises of an attempt: it uses the device that detection without a
configured port gives now, the smallest match of the first pattern with a match, and finds
none only when nothing matches. -/
structure Redetects (globs : List String) (e : OpenEnv) (dev : Option String) : Prop where
  detection : dev = findBasePort none globs e.globber
  isFirstMatch : ∀ d, dev = some d → IsFirstMatch globs e.globber d
  none_only : dev = none → ∀ pattern ∈ globs, e.globber pattern = []

lemma redetects_iff {e : OpenEnv} {dev : Option String} :
    Redetects globs e dev ↔ dev = detect globs e.globber := by
  refine ⟨fun h => h.detection, ?_⟩
  rintro rfl
  exact ⟨rfl, fun _ hd => detect_isFirstMatch hd, fun hd => detect_eq_none_iff.mp hd⟩

/-- Once one attempt has found the device somewhere, detection gives the same path at every
later attempt. -/
def NeverMoves (globs : List String) (attempts : List OpenEnv) : Prop :=
  attempts.Pairwise fun earlier later =>
    (detect globs earlier.globber).isSome →
      detect globs later.globber = detect globs earlier.globber

/-- **Auto-detection re-detects exactly as long as the board does not move.**  In a run of
a reader created with no port, object or factory, whatever is present and whatever opening
and reading do, every attempt uses the device that detection gives at that moment if and
only if detection never gives anything else after the first device found. -/
theorem redetects_iff_never_moves (cfg : Settings) (hcfg : cfg.hasFactory = false)
    (H : Handlers δ) (envs : List PollEnv) :
    let log := runOpened (cycles cfg H (.new none none) envs)
    (∀ a ∈ log, Redetects cfg.portGlobs a.1 a.2) ↔ NeverMoves cfg.portGlobs (log.map Prod.fst) := by
  intro log
  obtain ⟨_, hfollows⟩ := cycles_follows hcfg H envs (r := .new none none) rfl
  have hused : log.map Prod.snd = latch none (detected cfg.portGlobs log) := hfollows.used
  calc (∀ a ∈ log, Redetects cfg.portGlobs a.1 a.2)
      ↔ log.map Prod.snd = detected cfg.portGlobs log := by
        simp only [redetects_iff, detected, List.map_inj_left]
    _ ↔ latch none (detected cfg.portGlobs log) = detected cfg.portGlobs log := by rw [hused]
    _ ↔ NeverMoves cfg.portGlobs (log.map Prod.fst) := by
        rw [latch_none_eq_self_iff, detected, List.pairwise_map, NeverMoves, List.pairwise_map]

/-! ### A board that comes back -/

/-- A round in which `dev` is the only device, and can be opened. -/
@[simps]
def presentAt (dev : String) (hdev : dev ≠ "") : OpenEnv where
  stop := false
  factory := .error (.other "no factory")
  importSerial := .ok ()
  globber := fun pattern => if pattern = "/dev/ttyACM*" then [dev] else []
  globber_ne := by
    intro pattern
    split <;> simp [hdev.symm]
  serialSerial := fun d _ => if d = dev then .ok ⟨true⟩ else .error .osError

/-- What detection finds in such a round. -/
lemma findBasePort_presentAt (dev : String) (hdev : dev ≠ "") :
    findBasePort none ({} : Settings).portGlobs (presentAt dev hdev).globber = some dev := by
  simp [findBasePort, truthy, detect]

/-- The board is open at `was`, vanishes, and comes back at `now`. -/
def boardReturns (was now : String) (hwas : was ≠ "") (hnow : now ≠ "") : List PollEnv :=
  [⟨[presentAt was hwas], .error .osError⟩, ⟨[presentAt now hnow], .ok []⟩]

/-- Wherever it comes back, the next attempt goes for the old path. -/
lemma runOpened_boardReturns (was now : String) (hwas : was ≠ "") (hnow : now ≠ "") :
    runOpened (cycles {} silent (.new none none) (boardReturns was now hwas hnow)) =
      [(presentAt was hwas, some was), (presentAt now hnow, some was)] := by
  obtain ⟨d, hd, -⟩ := backoffDelay_ok (show ({} : Settings).DefaultBackoff from ⟨rfl, rfl⟩)
    (show 0 < 1024 by decide)
  -- the first cycle opens the board and loses it, the second tries to open it again
  by_cases hsame : was = now <;>
    simp [-one_div, boardReturns, cycles, runOpened, SerialReader.pollOnce,
      SerialReader.needsReconnect, SerialReader.reconnect, reconnectLoop, SerialReader.open_,
      SerialReader.new, findBasePort, truthy, detect, Option.filter_some, SerialReader.readCycle,
      SerialReader.close, PyErr.isReadFault, opened, hd, Except.map, hwas, hnow, hsame]

/-- A board that comes back where it was. -/
theorem redetects_same_path :
    let log := runOpened (cycles {} silent (.new none none)
      (boardReturns "/dev/ttyACM0" "/dev/ttyACM0" (by decide) (by decide)))
    ∀ a ∈ log, Redetects ({} : Settings).portGlobs a.1 a.2 := by
  refine (redetects_iff_never_moves {} rfl silent _).mpr ?_
  rw [runOpened_boardReturns]
  simp [NeverMoves]

/-- A board that comes back elsewhere. -/
theorem old_path_after_move :
    let log := runOpened (cycles {} silent (.new none none)
      (boardReturns "/dev/ttyACM0" "/dev/ttyACM1" (by decide) (by decide)))
    log.map Prod.snd = [some "/dev/ttyACM0", some "/dev/ttyACM0"] ∧
      ¬ ∀ a ∈ log, Redetects ({} : Settings).portGlobs a.1 a.2 := by
  rw [runOpened_boardReturns]
  refine ⟨rfl, fun h => ?_⟩
  have hnew := (h (_, _) (List.mem_cons_of_mem _ List.mem_cons_self)).detection
  rw [findBasePort_presentAt] at hnew
  exact absurd hnew (by decide)

end SrtGateway.SerialIo
