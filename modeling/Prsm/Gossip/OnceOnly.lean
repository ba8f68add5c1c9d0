import Prsm.Gossip.Node

/-!
# How often a message is delivered

Two live frames with one nonce are told apart by the barrier, as long as its window does not
overflow.  The two paths share nothing but the log, which the live path does not read and the
catch-up path reads before the other may have written.
-/

namespace Prsm.Gossip

open Foundations

variable (c : Config)

/-- The older message reached subscribers, with the same nonce and within the window. -/
def Near (d older : Delivery) : Prop :=
  older.nonce = d.nonce ∧ 0 < c.subscribers older.subtype ∧ d.time - older.time ≤ c.window

instance (d older : Delivery) : Decidable (Near c d older) :=
  inferInstanceAs (Decidable (_ ∧ _ ∧ _))

/-- The message counts: it has a nonce and subscribers. -/
def Counts (d : Delivery) : Prop :=
  d.nonce ≠ "" ∧ 0 < c.subscribers d.subtype

instance (d : Delivery) : Decidable (Counts c d) :=
  inferInstanceAs (Decidable (_ ∧ _))

/-- No nonce is delivered twice within the window. -/
def Once (delivered : List Delivery) : Prop :=
  delivered.Pairwise fun d older => Counts c d → ¬ Near c d older

instance (delivered : List Delivery) : Decidable (Once c delivered) :=
  inferInstanceAs (Decidable (List.Pairwise _ _))

/-- Whenever a nonce was accepted, no more than the cap were accepted within the window. -/
def Bounded : List (String × ℚ) → Prop
  | [] => True
  | entry :: older =>
      (entry :: older).countP (fun x => entry.2 - x.2 ≤ c.window) ≤ c.cap ∧ Bounded older

instance decidableBounded : (accepted : List (String × ℚ)) → Decidable (Bounded c accepted)
  | [] => isTrue trivial
  | entry :: older =>
      have := decidableBounded older
      inferInstanceAs (Decidable
        ((entry :: older).countP (fun x => entry.2 - x.2 ≤ c.window) ≤ c.cap ∧ Bounded c older))

/-- A live frame does not follow a caught-up entry with its nonce; a caught-up entry that
its lookup lets through follows no message with its nonce. -/
def Permitted (history : List Delivery) (d : Delivery) : Prop :=
  Counts c d → ∀ older ∈ history, Near c d older →
    match d.path with
    | .live => older.path = .live
    | .catchUp lookup => isDuplicate lookup = true

instance (history : List Delivery) (d : Delivery) : Decidable (Permitted c history d) :=
  have (older : Delivery) : Decidable
      (match d.path with
      | .live => older.path = .live
      | .catchUp lookup => isDuplicate lookup = true) := by
    cases d.path <;> infer_instance
  inferInstanceAs (Decidable (_ → ∀ older ∈ history, _ → _))

/-- Each of the messages, the latest first, meets a condition on it and those before. -/
def Each (P : List Delivery → Delivery → Prop) (history : List Delivery) : List Delivery → Prop
  | [] => True
  | d :: earlier => Each P history earlier ∧ P (earlier ++ history) d

instance decidableEach (P : List Delivery → Delivery → Prop) [∀ h d, Decidable (P h d)]
    (history : List Delivery) : (new : List Delivery) → Decidable (Each P history new)
  | [] => isTrue trivial
  | d :: earlier =>
      have := decidableEach P history earlier
      inferInstanceAs (Decidable (Each P history earlier ∧ P (earlier ++ history) d))

/-- What a turn delivers. -/
def newly (pool pool' : NodePool) : List Delivery :=
  pool'.state.delivered.take (pool'.state.delivered.length - pool.state.delivered.length)

/-- What the turn delivers does not pass through the gap between the paths. -/
def KeepsApart (pool : NodePool) (turn : Turn Call Bool) : Prop :=
  ∀ pool', (program c).machine.step pool turn = some pool' →
    Each (Permitted c) pool.state.delivered (newly pool pool')

instance (pool : NodePool) (turn : Turn Call Bool) : Decidable (KeepsApart c pool turn) :=
  inferInstanceAs (Decidable (∀ pool' ∈ (program c).machine.step pool turn,
    Each (Permitted c) pool.state.delivered (newly pool pool')))

/-! ## The window -/

section Window

variable {c} {now : ℚ} {seen accepted : List (String × ℚ)}

theorem Bounded.of_suffix {older : List (String × ℚ)} (h : Bounded c accepted)
    (hSuffix : older <:+ accepted) : Bounded c older := by
  induction accepted with
  | nil =>
      rw [List.suffix_nil.mp hSuffix]
      trivial
  | cons entry rest ih =>
      rcases List.suffix_cons_iff.mp hSuffix with rfl | hRest
      · exact h
      · exact ih h.2 hRest

theorem mem_pruned {entry : String × ℚ} (h : entry ∈ seen) (hTime : now - entry.2 ≤ c.window) :
    entry ∈ pruned c now seen := by
  induction seen with
  | nil => cases h
  | cons first rest ih =>
      rw [pruned, List.dropWhile_cons]
      split
      next hOld =>
        rcases List.mem_cons.mp h with rfl | hRest
        · exact absurd (of_decide_eq_true hOld) (not_lt.mpr hTime)
        · exact ih hRest
      · exact h

theorem pruned_recent (hSorted : seen.Pairwise fun x y => x.2 ≤ y.2) :
    ∀ entry ∈ pruned c now seen, now - entry.2 ≤ c.window := by
  induction seen with
  | nil => simp [pruned]
  | cons first rest ih =>
      obtain ⟨hFirst, hRest⟩ := List.pairwise_cons.mp hSorted
      rw [pruned, List.dropWhile_cons]
      split
      · exact ih hRest
      next hNew =>
        have hTime : now - first.2 ≤ c.window := not_lt.mp fun hOld => hNew (decide_eq_true hOld)
        intro entry hEntry
        rcases List.mem_cons.mp hEntry with rfl | hLater
        · exact hTime
        · have hOrder := hFirst entry hLater
          linarith

theorem pruned_suffix : pruned c now seen <:+ seen :=
  List.dropWhile_suffix _

end Window

/-! ## The invariant of the node -/

/-- The barrier remembers the accepted nonces of the window, and knows all live messages. -/
structure Inv (s : Node) : Prop where
  sorted : s.accepted.Pairwise fun x y => y.2 ≤ x.2
  past : ∀ entry ∈ s.accepted, entry.2 ≤ s.clock
  recent : s.seen.reverse <+: s.accepted
  covers : Bounded c s.accepted → ∀ entry ∈ s.accepted, s.clock - entry.2 ≤ c.window →
    entry ∈ s.seen
  live : ∀ d ∈ s.delivered, d.path = .live → d.nonce ≠ "" → (d.nonce, d.time) ∈ s.accepted

/-- The nonce has just passed the barrier. -/
def Admitted (nonce : String) (s : Node) : Prop :=
  nonce ≠ "" → (nonce, s.clock) ∈ s.accepted ∧
    (Bounded c s.accepted → ∀ d ∈ s.delivered, d.path = .live → d.nonce = nonce →
      c.window < s.clock - d.time)

section Invariant

variable {c} {s s' : Node} {nonce : String}

theorem Inv.seen_sorted (h : Inv c s) : s.seen.Pairwise fun x y => x.2 ≤ y.2 := by
  have hReverse := h.sorted.sublist h.recent.sublist
  rw [List.pairwise_reverse] at hReverse
  exact hReverse

theorem Inv.of_later (h : Inv c s) (hClock : s.clock ≤ s'.clock) (hSeen : s'.seen = s.seen)
    (hAccepted : s'.accepted = s.accepted) (hDelivered : s'.delivered = s.delivered) :
    Inv c s' where
  sorted := hAccepted ▸ h.sorted
  past := fun entry hEntry => (h.past entry (hAccepted ▸ hEntry)).trans hClock
  recent := by
    rw [hSeen, hAccepted]
    exact h.recent
  covers := by
    rw [hSeen, hAccepted]
    intro hBounded entry hEntry hTime
    exact h.covers hBounded entry hEntry (by linarith)
  live := by
    rw [hAccepted, hDelivered]
    exact h.live

theorem Inv.prune (h : Inv c s) : Inv c (s.prune c) where
  sorted := h.sorted
  past := h.past
  recent := (List.reverse_prefix.mpr pruned_suffix).trans h.recent
  covers := fun hBounded entry hEntry hTime =>
    mem_pruned (h.covers hBounded entry hEntry hTime) hTime
  live := h.live

theorem Inv.capped_eq (h : Inv c s) (hBounded : Bounded c (s.accept c nonce).accepted) :
    (s.accept c nonce).seen = pruned c s.clock s.seen ++ [(nonce, s.clock)] := by
  have hPrefix : (pruned c s.clock s.seen).reverse <+: s.accepted :=
    (List.reverse_prefix.mpr pruned_suffix).trans h.recent
  have hAll : (pruned c s.clock s.seen).reverse.countP (fun x => s.clock - x.2 ≤ c.window)
      = (pruned c s.clock s.seen).length := by
    rw [List.countP_eq_length.mpr, List.length_reverse]
    intro entry hEntry
    exact decide_eq_true (pruned_recent h.seen_sorted entry (List.mem_reverse.mp hEntry))
  have hCount := hPrefix.sublist.countP_le (p := fun x => decide (s.clock - x.2 ≤ c.window))
  have hCap : ((nonce, s.clock) :: s.accepted).countP
      (fun x => decide (s.clock - x.2 ≤ c.window)) ≤ c.cap := hBounded.1
  rw [List.countP_cons, if_pos (by simpa using c.window_pos.le)] at hCap
  have hFits : (pruned c s.clock s.seen).length + 1 - c.cap = 0 := by omega
  show capped c _ = _
  rw [capped, List.length_append, List.length_singleton, hFits, List.drop_zero]

theorem Inv.accept (h : Inv c s) : Inv c (s.accept c nonce) where
  sorted := List.pairwise_cons.mpr ⟨fun entry hEntry => h.past entry hEntry, h.sorted⟩
  past := by
    intro entry hEntry
    rcases List.mem_cons.mp hEntry with rfl | hOld
    · exact le_rfl
    · exact h.past entry hOld
  recent := by
    have hSuffix : (s.accept c nonce).seen <:+ s.seen ++ [(nonce, s.clock)] :=
      (List.drop_suffix _ _).trans (List.suffix_append_self_iff.mpr pruned_suffix)
    refine (List.reverse_prefix.mpr hSuffix).trans ?_
    rw [List.reverse_append]
    exact List.cons_prefix_cons.mpr ⟨rfl, h.recent⟩
  covers := by
    intro hBounded entry hEntry hTime
    rw [h.capped_eq hBounded]
    rcases List.mem_cons.mp hEntry with rfl | hOld
    · simp
    · exact List.mem_append_left _ (mem_pruned (h.covers hBounded.2 entry hOld hTime) hTime)
  live := fun d hd hLive hNonce => List.mem_cons_of_mem _ (h.live d hd hLive hNonce)

theorem Inv.record {subtype : String} {path : Path} (h : Inv c s)
    (hLive : path = .live → nonce ≠ "" → (nonce, s.clock) ∈ s.accepted) :
    Inv c (s.record nonce subtype path) where
  sorted := h.sorted
  past := h.past
  recent := h.recent
  covers := h.covers
  live := by
    intro d hd hPath hNonce
    rcases List.mem_cons.mp hd with rfl | hOld
    · exact hLive hPath hNonce
    · exact h.live d hOld hPath hNonce

theorem Inv.admitted (h : Inv c s) (hSeen : s.isSeen c nonce = false) :
    Admitted c nonce (s.accept c nonce) := by
  intro hNonce
  refine ⟨List.mem_cons_self, fun hBounded d hd hLive hSame => ?_⟩
  by_contra hTime
  have hAccepted := h.live d hd hLive (hSame ▸ hNonce)
  have hWindow : s.clock - d.time ≤ c.window := not_lt.mp hTime
  have hPruned := mem_pruned (h.covers hBounded.2 _ hAccepted hWindow) hWindow
  have hHere : nonce ∈ (pruned c s.clock s.seen).map Prod.fst :=
    List.mem_map.mpr ⟨_, hPruned, hSame⟩
  rw [Node.isSeen, List.contains_eq_mem, decide_eq_false_iff_not] at hSeen
  exact hSeen hHere

end Invariant

/-! ## What a handler delivers -/

/-- What the handlers make sure of when they deliver a message: the barrier has let a live
one through, and the log has not known the other. -/
def LetThrough (history : List Delivery) (d : Delivery) : Prop :=
  match d.path with
  | .live => d.nonce ≠ "" → ∀ older ∈ history, older.path = .live → older.nonce = d.nonce →
      c.window < d.time - older.time
  | .catchUp lookup => isDuplicate lookup = false

/-- A segment of a handler between two awaits. -/
def Writes (s s' : Node) : Prop :=
  ∃ new, s'.delivered = new ++ s.delivered ∧ s.accepted <:+ s'.accepted ∧
    (Bounded c s'.accepted → Each (LetThrough c) s.delivered new)

section Segments

variable {c} {s s' s'' : Node} {me : ℕ} {nonce subtype : String}

theorem each_append {P : List Delivery → Delivery → Prop} {history new new' : List Delivery}
    (h : Each P history new) (h' : Each P (new ++ history) new') :
    Each P history (new' ++ new) := by
  induction new' with
  | nil => exact h
  | cons d earlier ih =>
      refine ⟨ih h'.1, ?_⟩
      show P ((earlier ++ new) ++ history) d
      rw [List.append_assoc]
      exact h'.2

theorem Writes.of_grown (hDelivered : s'.delivered = s.delivered)
    (hAccepted : s.accepted <:+ s'.accepted) : Writes c s s' :=
  ⟨[], hDelivered, hAccepted, fun _ => trivial⟩

theorem Writes.of_same (hDelivered : s'.delivered = s.delivered)
    (hAccepted : s'.accepted = s.accepted) : Writes c s s' :=
  .of_grown hDelivered (hAccepted ▸ List.suffix_refl _)

theorem Writes.trans (h : Writes c s s') (h' : Writes c s' s'') : Writes c s s'' := by
  obtain ⟨new, hNew, hAccepted, hEach⟩ := h
  obtain ⟨new', hNew', hAccepted', hEach'⟩ := h'
  refine ⟨new' ++ new, ?_, hAccepted.trans hAccepted', fun hBounded => ?_⟩
  · rw [hNew', hNew, List.append_assoc]
  · apply each_append
    · exact hEach (hBounded.of_suffix hAccepted')
    · rw [← hNew]
      exact hEach' hBounded

/-- At every await anything may happen that keeps the invariant. -/
def discipline (c : Config) : Discipline Node Request Bool where
  Inv := Inv c
  Fresh := fun _ _ => True
  Rely := fun _ _ _ => True
  Writes := Writes c
  Allowed := fun _ _ _ _ => True
  Before := fun _ _ _ => True
  rely_refl := fun _ _ => trivial
  rely_trans := fun _ _ _ _ _ _ => trivial
  writes_refl := fun _ => .of_same rfl rfl
  writes_trans := fun _ _ _ h h' => h.trans h'
  fresh_stable := fun _ _ _ _ _ _ _ => trivial

end Segments

/-- The handler keeps the invariant, and delivers only what is let through. -/
def Sound {α : Type} (me : ℕ) (p : Method α) (s : Node) : Prop :=
  (discipline c).Safe (program c).serve me (fun _ _ => True) p s

section Handlers

variable {c} {α β : Type} {me : ℕ} {s s' : Node}

theorem inv_of_serve {raises : Bool} {r : Request} {answer : Answer r} (h : Inv c s)
    (hServe : serve raises s r = some (answer, s')) :
    Inv c s' ∧ s'.delivered = s.delivered ∧ s'.accepted = s.accepted := by
  cases r with
  | sleep seconds =>
      cases hServe
      have hLater : s.clock ≤ s.clock + seconds := le_add_of_nonneg_right seconds.2
      exact ⟨h.of_later hLater rfl rfl rfl, rfl, rfl⟩
  | _ =>
      cases hServe
      exact ⟨h.of_later le_rfl rfl rfl rfl, rfl, rfl⟩

theorem sound_bind {p : Method α} {f : α → Method β} (hInv : Inv c s) (h : Sound c me p s)
    (hNext : ∀ a s, Inv c s → Sound c me (f a) s) : Sound c me (p.bind f) s :=
  h.bind hInv (fun a s hHere _ => hNext a s hHere) fun _ _ _ _ => trivial

theorem sound_ask (r : Request) : Sound c me (Coroutine.ask r) s := by
  intro s' _ hInv
  refine ⟨trivial, fun raises answer s'' _ hServe => ?_⟩
  exact ⟨⟨(inv_of_serve hInv hServe).1, fun _ _ => trivial⟩, fun _ _ _ => trivial⟩

theorem sound_write {f : Node → Node} {next : Method α} (hInv : Inv c (f s))
    (hWrites : Writes c s (f s)) (hNext : Sound c me next (f s)) :
    Sound c me (.write f next) s :=
  ⟨⟨hInv, fun _ _ => trivial⟩, hWrites, hNext⟩

theorem sound_callbacks {subtype origin : String} {data : PyValue} {n : ℕ} (hInv : Inv c s) :
    Sound c me (callbacks subtype data origin n) s := by
  induction n generalizing s with
  | zero => trivial
  | succ n ih => exact sound_bind hInv (ih hInv) fun _ _ _ => sound_ask _

theorem sound_deliver {nonce subtype origin : String} {data : PyValue} {path : Path}
    (hInv : Inv c s) (hLive : path = .live → Admitted c nonce s)
    (hCaughtUp : ∀ lookup, path = .catchUp lookup → isDuplicate lookup = false) :
    Sound c me (deliver c nonce subtype data origin path) s := by
  have hRecorded : Inv c (s.record nonce subtype path) :=
    hInv.record fun hPath hNonce => (hLive hPath hNonce).1
  have hWrites : Writes c s (s.record nonce subtype path) := by
    refine ⟨[⟨nonce, subtype, path, s.clock⟩], rfl, List.suffix_refl _, fun hBounded => ?_⟩
    refine ⟨trivial, ?_⟩
    cases path with
    | live => exact fun hNonce => (hLive rfl hNonce).2 hBounded
    | catchUp lookup => exact hCaughtUp lookup rfl
  exact sound_write hRecorded hWrites (sound_callbacks hRecorded)

variable {frame : Frame} {peer : String}

theorem sound_handleFresh (hInv : Inv c s) (h : Admitted c frame.nonce s) :
    Sound c me (handleFresh c frame) s := by
  apply sound_bind hInv (sound_deliver hInv (fun _ => h) fun _ hPath => by cases hPath)
  intro _ s hInv
  have hPersist : Sound c me (persist frame) s := by
    unfold persist
    split
    · exact sound_ask _
    · trivial
  apply sound_bind hInv hPersist
  intro _ s _
  unfold propagate
  split
  · exact sound_ask _
  · trivial

theorem sound_handleEntry {entry : Entry} (hInv : Inv c s) :
    Sound c me (handleEntry c entry) s := by
  unfold handleEntry
  split
  · trivial
  · have hLookUp : Sound c me (lookUp entry.nonce) s := by
      unfold lookUp
      split
      · trivial
      · exact sound_bind hInv (sound_ask _) fun _ _ _ => trivial
    apply sound_bind hInv hLookUp
    intro lookup s hInv
    split
    · trivial
    next hFresh =>
      have hLetThrough : isDuplicate lookup = false := by simpa using hFresh
      apply sound_bind hInv (sound_deliver hInv (fun hPath => by cases hPath) ?_)
      · intro _ s _
        split
        · exact sound_ask _
        · trivial
      · intro lookup' hPath
        cases hPath
        exact hLetThrough

theorem sound_handleEntries {entries : List Entry} (hInv : Inv c s) :
    Sound c me (handleEntries c entries) s := by
  induction entries generalizing s with
  | nil => trivial
  | cons entry rest ih =>
      exact sound_bind hInv (sound_handleEntry hInv) fun _ _ hInv' => ih hInv'

theorem sound_handleDigestResponse (hInv : Inv c s) :
    Sound c me (handleDigestResponse c frame peer) s := by
  have hErased : Inv c { s with pendingDigest := s.pendingDigest.erase peer } :=
    hInv.of_later le_rfl rfl rfl rfl
  have hWrites : Writes c s { s with pendingDigest := s.pendingDigest.erase peer } :=
    .of_same rfl rfl
  show Sound c me
    (.write (fun s => { s with pendingDigest := s.pendingDigest.erase peer }) _) s
  apply sound_write hErased hWrites
  split
  · trivial
  next expiry _ =>
    show Sound c me (if expiry ≤ s.clock then _ else _) _
    split
    · trivial
    · exact sound_handleEntries hErased

theorem sound_handleGossip (hInv : Inv c s) :
    Sound c me (handleGossip c frame peer) s := by
  unfold handleGossip
  split
  · trivial
  split
  · exact sound_ask _
  split
  · exact sound_handleDigestResponse hInv
  split
  next hEmpty => exact sound_handleFresh hInv fun hNonce => absurd hEmpty hNonce
  -- the barrier reads and writes the nonces within one segment
  show Sound c me ((if s.isSeen c frame.nonce then _ else _ : Method Bool).bind _) s
  cases hSeen : s.isSeen c frame.nonce with
  | true =>
      exact sound_write hInv.prune (.of_same rfl rfl) trivial
  | false =>
      exact sound_write hInv.accept (.of_grown rfl (List.suffix_cons _ _))
        (sound_handleFresh hInv.accept (hInv.admitted hSeen))

theorem sound_requestDigest (hInv : Inv c s) :
    Sound c me (requestDigest peer) s := by
  apply sound_bind hInv (sound_ask _)
  intro _ s hInv
  let asked (s' : Node) : Node := { s' with
    pendingDigest := (Dict.ofEntries (s'.pendingDigest.entries.filter fun p => s.clock < p.2)).set
      peer (s.clock + digestRequestTtl) }
  have hAsked : Inv c (asked s) := hInv.of_later le_rfl rfl rfl rfl
  have hWrites : Writes c s (asked s) := .of_same rfl rfl
  show Sound c me (.write asked _) s
  exact sound_write hAsked hWrites trivial

theorem sound_body {call : Call} (hInv : Inv c s) :
    Sound c me ((program c).body me call) s := by
  cases call with
  | gossip frame peer => exact sound_handleGossip hInv
  | requestDigest peer => exact sound_requestDigest hInv
  | wait seconds => exact sound_ask _

end Handlers

section Runs

variable {c} {pool pool' : NodePool}

/-- The invariant holds, and every task is sound. -/
def Tracked (c : Config) (pool : NodePool) : Prop :=
  (program c).Good (discipline c) (fun _ _ _ _ => True) pool

theorem tracked_start (c : Config) (log : Dict String LogRow) (clock : ℚ) :
    Tracked c (start log clock) where
  inv := {
    sorted := List.Pairwise.nil
    past := fun entry hEntry => by simp [start] at hEntry
    recent := List.nil_prefix
    covers := fun _ entry hEntry => by simp [start] at hEntry
    live := fun d hd => by simp [start] at hd }
  suspended := fun me c p hTask => by simp [start] at hTask
  fresh := fun _ _ => trivial

theorem Tracked.advance {turn : Turn Call Bool} (h : Tracked c pool)
    (hTurn : (program c).machine.step pool turn = some pool') : Tracked c pool' :=
  Program.Good.advance h (fun _ _ _ _ _ _ _ _ _ => trivial) hTurn
    (fun _ _ _ _ hInv _ => sound_body hInv) (fun _ _ _ _ _ => trivial)
    fun _ _ hRestart => by cases hRestart

theorem Tracked.writes {turn : Turn Call Bool} (h : Tracked c pool)
    (hTurn : (program c).machine.step pool turn = some pool') :
    Writes c pool.state pool'.state := by
  cases turn with
  | call call =>
      cases hTurn
      exact .of_same rfl rfl
  | resume me => exact Program.Good.writes h hTurn
  | serve me raises =>
      obtain ⟨call, p, p', hTask, hMoved, -⟩ := Program.of_turnOf hTurn
      obtain ⟨r, resume, answer, rfl, hServe, -⟩ := Coroutine.of_served hMoved
      obtain ⟨-, hDelivered, hAccepted⟩ := inv_of_serve h.inv hServe
      exact .of_same hDelivered hAccepted
  | crash => cases hTurn

theorem permitted_iff {history : List Delivery} {d : Delivery} (h : LetThrough c history d) :
    (∀ older ∈ history, Counts c d → ¬ Near c d older) ↔ Permitted c history d := by
  constructor
  · intro hApart hCounts older hOlder hNear
    exact absurd hNear (hApart older hOlder hCounts)
  · intro hPermitted older hOlder hCounts hNear
    have hPath := hPermitted hCounts older hOlder hNear
    cases hKind : d.path with
    | live =>
        simp only [LetThrough, hKind] at h hPath
        have hTime := h hCounts.1 older hOlder hPath hNear.1
        exact absurd hNear.2.2 (not_le.mpr hTime)
    | catchUp lookup =>
        simp only [LetThrough, hKind] at h hPath
        rw [h] at hPath
        cases hPath

theorem once_append_iff {history new : List Delivery} (h : Each (LetThrough c) history new)
    (hOnce : Once c history) : Once c (new ++ history) ↔ Each (Permitted c) history new := by
  induction new with
  | nil => exact ⟨fun _ => trivial, fun _ => hOnce⟩
  | cons d earlier ih =>
      show List.Pairwise _ (d :: (earlier ++ history)) ↔ _
      rw [List.pairwise_cons, permitted_iff h.2]
      exact ⟨fun hAll => ⟨(ih h.1).mp hAll.2, hAll.1⟩, fun hAll => ⟨hAll.2, (ih h.1).mpr hAll.1⟩⟩

theorem once_step_iff {turn : Turn Call Bool} (h : Tracked c pool)
    (hOnce : Once c pool.state.delivered)
    (hTurn : (program c).machine.step pool turn = some pool')
    (hBounded : Bounded c pool'.state.accepted) :
    Once c pool'.state.delivered ↔ KeepsApart c pool turn := by
  obtain ⟨new, hNew, -, hEach⟩ := h.writes hTurn
  have hNewly : newly pool pool' = new := by
    rw [newly, hNew, List.length_append, Nat.add_sub_cancel, List.take_left]
  rw [hNew, once_append_iff (hEach hBounded) hOnce, ← hNewly]
  constructor
  · intro hPermitted other hOther
    rw [hTurn] at hOther
    cases hOther
    exact hPermitted
  · intro hKeeps
    exact hKeeps pool' hTurn

theorem accepted_along {log : Dict String LogRow} {clock : ℚ}
    {turns visited : List (Turn Call Bool)}
    (hVisited : visited <+: turns) :
    ((program c).machine.run (start log clock) visited).state.accepted <:+
      ((program c).machine.run (start log clock) turns).state.accepted := by
  apply (program c).machine.related_along (Tracked c) (fun _ _ => True)
    (fun pool pool' => pool.state.accepted <:+ pool'.state.accepted)
  · exact fun pool => List.suffix_refl _
  · exact fun _ _ _ h h' => h.trans h'
  · intro pool turn pool' hTracked _ hTurn
    obtain ⟨-, -, hAccepted, -⟩ := hTracked.writes hTurn
    exact ⟨hTracked.advance hTurn, hAccepted⟩
  · exact tracked_start c log clock
  · exact fun _ _ _ _ => trivial
  · exact hVisited
  · exact List.prefix_refl _

end Runs

def sampleConfig : Config := ⟨3600, by norm_num, 10, fun _ => 1⟩

def sampleFrame : Frame :=
  ⟨"n", "job_offer", .int 1, "author", 1, none, []⟩

def sampleResponse : Frame :=
  ⟨"m", "digest_response", .none, "peer", 1, none,
    [⟨"n", "job_offer", .int 1, "peer", "author", none⟩]⟩

def repeatedTurns : List (Turn Call Bool) :=
  [.call (.gossip sampleFrame "peer"), .resume 0, .call (.gossip sampleFrame "peer"), .resume 1]

/-- The node asks a peer for a digest, delivers the message from the answer, and then gets
the frame. -/
def crossedTurns : List (Turn Call Bool) :=
  [.call (.requestDigest "peer"), .serve 0 false, .resume 0,
    .call (.gossip sampleResponse "peer"), .resume 1, .serve 1 false, .resume 1,
    .call (.gossip sampleFrame "peer"), .resume 2]

end Prsm.Gossip
