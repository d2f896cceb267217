import RojalMQTT.TasksLaws

/-! The socket that the tasks hand over, in every interleaving. -/

namespace RojalMQTT

open Library

namespace SeparateTasks

def Happening.isSent : Happening → Bool
  | .sent _ => true
  | _ => false

def Happening.isTaken (task : Task) : Happening → Bool
  | .taken task' => task' = task
  | _ => false

def Happening.isEnd (task : Task) : Happening → Bool
  | .ends task' => task' = task
  | _ => false

def Happening.isOpening : Happening → Bool
  | .opens => true
  | _ => false

def Demo.queued (d : Demo) : Nat := if d.xSocketPassingQueue = none then 0 else 1

def Demo.holds (d : Demo) : Task → Nat
  | .connect => 0
  | .receive => if d.receive = .waiting then 0 else 1
  | .alive => if d.alive = .waiting then 0 else 1
  | .publish => if d.publish = .waiting then 0 else 1

/-- How many times the socket was sent for the connection that is to be opened. -/
def Demo.progress (d : Demo) : Nat := match d.connect with
  | .sending n => n
  | .opening => 3
  | _ => 0

def sends (happened : List Happening) : Nat := happened.countP Happening.isSent
def takes (task : Task) (happened : List Happening) : Nat := happened.countP (Happening.isTaken task)
def ends (task : Task) (happened : List Happening) : Nat := happened.countP (Happening.isEnd task)
def openings (happened : List Happening) : Nat := happened.countP Happening.isOpening

def ofAll (count : Task → Nat) : Nat :=
  count .connect + (count .receive + (count .alive + count .publish))

/-- Sockets are only moved: into the queue, from there to a task, and out of its hands. -/
structure Balanced (d : Demo) (happened : List Happening) (d' : Demo) : Prop where
  queue : d.queued + sends happened = ofAll (takes · happened) + d'.queued
  tasks : ∀ task, d.holds task + takes task happened = ends task happened + d'.holds task
  opening : d.progress + sends happened = 3 * openings happened + d'.progress
  connect : takes .connect happened = 0

theorem Balanced.append {d d' d'' : Demo} (h : Balanced d happened d')
    (h' : Balanced d' happened' d'') : Balanced d (happened ++ happened') d'' := by
  obtain ⟨queue, tasks, opening, connect⟩ := h
  obtain ⟨queue', tasks', opening', connect'⟩ := h'
  simp only [ofAll, sends, takes, ends, openings] at *
  refine ⟨?_, fun task => ?_, ?_, ?_⟩
  · simp only [ofAll, sends, takes, List.countP_append]
    omega
  · have := tasks task
    have := tasks' task
    simp only [takes, ends, List.countP_append]
    omega
  · simp only [sends, openings, List.countP_append]
    omega
  · rw [takes, List.countP_append, connect, connect']

theorem countP_client {p : Happening → Bool} (silent : ∀ e, p (.client e) = false)
    (events : List Event) : (events.map Happening.client).countP p = 0 := by
  rw [List.countP_map, List.countP_eq_zero]
  intro e _
  simp [silent]

section Steps

variable {d d' : Demo} {o : Oracle}

structure Silent (happened : List Happening) : Prop where
  sends : sends happened = 0
  takes : ∀ task, takes task happened = 0
  ends : ∀ task, ends task happened = 0
  openings : openings happened = 0

theorem silent_nil : Silent [] := ⟨rfl, fun _ => rfl, fun _ => rfl, rfl⟩

theorem silent_client (events : List Event) : Silent (events.map .client) :=
  ⟨countP_client (fun _ => rfl) _, fun _ => countP_client (fun _ => rfl) _,
    fun _ => countP_client (fun _ => rfl) _, countP_client (fun _ => rfl) _⟩

theorem balanced_of_silent (silent : Silent happened) (queued : d'.queued = d.queued)
    (holds : d'.holds = d.holds) (progress : d'.progress = d.progress) : Balanced d happened d' := by
  obtain ⟨sends, takes, ends, opens⟩ := silent
  refine ⟨?_, fun task => ?_, ?_, takes .connect⟩
  · simp only [ofAll, takes]
    omega
  · rw [takes task, ends task, holds, Nat.add_zero, Nat.zero_add]
  · omega

theorem holds_congr (receive : d'.receive = .waiting ↔ d.receive = .waiting)
    (alive : d'.alive = .waiting ↔ d.alive = .waiting)
    (publish : d'.publish = .waiting ↔ d.publish = .waiting) : d'.holds = d.holds := by
  funext task
  cases task <;> simp [Demo.holds, receive, alive, publish]

theorem Framed.counts (h : Framed d d') :
    d'.queued = d.queued ∧ d'.holds = d.holds ∧ d'.progress = d.progress := by
  refine ⟨?_, ?_, ?_⟩
  · rw [Demo.queued, Demo.queued, h.queue]
  · exact holds_congr (by rw [h.receive]) (by rw [h.alive]) (by rw [h.publish])
  · rw [Demo.progress, Demo.progress, h.connect]

theorem prvConnectTask_balanced (h : prvConnectTask d o = .ok (happened, d')) :
    Balanced d happened d' := by
  rw [prvConnectTask] at h
  split at h
  case h_4 n sending =>
    have before : d.progress = n := by rw [Demo.progress, sending]
    split at h
    case h_1 empty =>
      cases h
      have none : d.queued = 0 := by rw [Demo.queued, if_pos empty]
      refine ⟨?_, fun task => (Nat.zero_add (d.holds task)).symm, ?_, rfl⟩
      · change d.queued + 1 = 0 + 1
        omega
      · rw [before]
        change n.val + 1 = 3 * 0 + _
        by_cases last : n = 2
        · simp [Demo.progress, last]
        · have more : (n + 1).val = n.val + 1 := by
            have := n.isLt
            omega
          simp [Demo.progress, last, more]
    case h_2 =>
      cases h
      exact balanced_of_silent silent_nil rfl rfl rfl
  case h_5 opening =>
    obtain ⟨⟨a, d₁⟩, run, h⟩ := bind_eq_ok h
    cases h
    obtain ⟨queued, holds, -⟩ := (call_spec run).2.counts
    obtain ⟨noSends, noTakes, noEnds, noOpens⟩ := silent_client a.events
    have before : d.progress = 3 := by rw [Demo.progress, opening]
    have after : openings (.opens :: a.events.map .client) = 1 := by
      rw [openings, List.countP_cons_of_pos rfl]
      exact congrArg (· + 1) noOpens
    refine ⟨?_, fun task => ?_, ?_, noTakes .connect⟩
    · change d.queued + sends (a.events.map .client) =
        ofAll (takes · (a.events.map .client)) + d₁.queued
      simp only [ofAll, noTakes]
      omega
    · change d.holds task + takes task (a.events.map .client) =
        ends task (a.events.map .client) + d₁.holds task
      rw [noTakes, noEnds, holds, Nat.add_zero, Nat.zero_add]
    · rw [before, after]
      change 3 + sends (a.events.map .client) = 3 * 1 + _
      rw [noSends]
      cases a.ret <;> rfl
  case h_6 announcing =>
    obtain ⟨⟨a, d₁⟩, run, h⟩ := bind_eq_ok h
    cases h
    obtain ⟨queued, holds, -⟩ := (call_spec run).2.counts
    refine balanced_of_silent (silent_client a.events) queued holds ?_
    simp [Demo.progress, announcing]
  case h_3 connecting =>
    split at h <;>
    · cases h
      refine balanced_of_silent silent_nil rfl rfl ?_
      simp [Demo.progress, connecting]
  case h_7 online =>
    split at h <;>
    · cases h
      refine balanced_of_silent silent_nil rfl rfl ?_
      simp [Demo.progress, online]
  case h_1 at' | h_2 at' | h_8 at' | h_9 at' =>
    cases h
    refine balanced_of_silent ⟨rfl, fun _ => rfl, fun _ => rfl, rfl⟩ rfl rfl ?_
    simp [Demo.progress, at']

theorem balanced_taken {task : Task} (consumes : task ≠ .connect)
    (full : d.xSocketPassingQueue ≠ none) (empty : d'.xSocketPassingQueue = none)
    (free : d.holds task = 0) (holds : ∀ t, d'.holds t = if t = task then 1 else d.holds t)
    (progress : d'.progress = d.progress) : Balanced d [.taken task] d' := by
  have before : d.queued = 1 := by rw [Demo.queued, if_neg full]
  have after : d'.queued = 0 := by rw [Demo.queued, if_pos empty]
  refine ⟨?_, fun t => ?_, progress.symm.trans (Nat.zero_add _).symm, ?_⟩
  · have one : ofAll (takes · [.taken task]) = 1 := by cases task <;> rfl
    have none : sends [.taken task] = 0 := rfl
    omega
  · rw [holds]
    by_cases same : t = task
    · simp [takes, ends, Happening.isTaken, Happening.isEnd, same, free]
    · simp [takes, ends, Happening.isTaken, Happening.isEnd, same, Ne.symm same]
  · simp [takes, Happening.isTaken, consumes]

theorem balanced_ended {task : Task} (events : List Event) (queued : d'.queued = d.queued)
    (busy : d.holds task = 1) (holds : ∀ t, d'.holds t = if t = task then 0 else d.holds t)
    (progress : d'.progress = d.progress) : Balanced d (events.map .client ++ [.ends task]) d' := by
  obtain ⟨noSends, noTakes, noEnds, noOpens⟩ := silent_client events
  have noTakes' (t : Task) : takes t (events.map .client ++ [.ends task]) = 0 := by
    rw [takes, List.countP_append]
    exact congrArg (· + 0) (noTakes t)
  have noSends' : sends (events.map .client ++ [.ends task]) = 0 := by
    rw [sends, List.countP_append]
    exact congrArg (· + 0) noSends
  refine ⟨?_, fun t => ?_, ?_, noTakes' .connect⟩
  · simp only [ofAll, noTakes']
    omega
  · have count : ends t (events.map .client ++ [.ends task]) = if t = task then 1 else 0 := by
      rw [ends, List.countP_append, ← ends, noEnds t]
      by_cases same : t = task
      · simp [Happening.isEnd, same]
      · simp [Happening.isEnd, same, Ne.symm same]
    rw [noTakes', count, holds]
    by_cases same : t = task
    · simp [same, busy]
    · simp [same]
  · have noOpens' : openings (events.map .client ++ [.ends task]) = 0 := by
      rw [openings, List.countP_append]
      exact congrArg (· + 0) noOpens
    omega

theorem prvReceiveTask_balanced (h : prvReceiveTask d o = .ok (happened, d')) :
    Balanced d happened d' := by
  rw [prvReceiveTask] at h
  split at h
  case h_1 waiting =>
    split at h
    case h_1 =>
      cases h
      exact balanced_of_silent silent_nil rfl rfl rfl
    case h_2 s full =>
      cases h
      have free : d.holds .receive = 0 := by simp [Demo.holds, waiting]
      refine balanced_taken (by decide) (by simp [full]) rfl free (fun t => ?_) rfl
      cases t <;> simp [Demo.holds]
  case h_2 s looping =>
    split at h
    · cases h
      refine balanced_of_silent silent_nil rfl (holds_congr ?_ .rfl .rfl) rfl
      simp [looping]
    · cases h
      refine balanced_ended [] rfl (by simp [Demo.holds, looping]) (fun t => ?_) rfl
      cases t <;> simp [Demo.holds]
  case h_3 s reading =>
    split at h
    case h_3 =>
      obtain ⟨⟨happened, d₁⟩, run, h⟩ := bind_eq_ok h
      cases h
      obtain ⟨-, framed, events, rfl⟩ := received_simulates run
      refine balanced_of_silent (silent_client events) framed.counts.1 (holds_congr ?_ ?_ ?_)
        framed.counts.2.2
      · simp [reading]
      · rw [framed.alive]
      · rw [framed.publish]
    all_goals
      cases h
      refine balanced_of_silent silent_nil rfl (holds_congr ?_ .rfl .rfl) rfl
      simp [reading]

theorem prvAliveTask_balanced (h : prvAliveTask d o = .ok (happened, d')) :
    Balanced d happened d' := by
  rw [prvAliveTask] at h
  split at h
  case h_1 waiting =>
    split at h
    case h_1 =>
      cases h
      exact balanced_of_silent silent_nil rfl rfl rfl
    case h_2 s full =>
      cases h
      have free : d.holds .alive = 0 := by simp [Demo.holds, waiting]
      refine balanced_taken (by decide) (by simp [full]) rfl free (fun t => ?_) rfl
      cases t <;> simp [Demo.holds]
  case h_2 sleeping =>
    obtain ⟨⟨a, d₁⟩, run, h⟩ := bind_eq_ok h
    obtain ⟨-, framed⟩ := call_spec run
    obtain ⟨queued, holds, progress⟩ := framed.counts
    simp only at h
    split at h
    · cases h
      exact balanced_of_silent (silent_client a.events) queued holds progress
    · cases h
      refine balanced_ended a.events queued (by simp [Demo.holds, sleeping]) (fun t => ?_) progress
      cases t <;> simp [Demo.holds, framed.receive, framed.publish]

theorem prvPublishTask_balanced (h : prvPublishTask d o = .ok (happened, d')) :
    Balanced d happened d' := by
  rw [prvPublishTask] at h
  split at h
  case h_1 waiting =>
    split at h
    case h_1 =>
      cases h
      exact balanced_of_silent silent_nil rfl rfl rfl
    case h_2 s full =>
      cases h
      have free : d.holds .publish = 0 := by simp [Demo.holds, waiting]
      refine balanced_taken (by decide) (by simp [full]) rfl free (fun t => ?_) rfl
      cases t <;> simp [Demo.holds]
  case h_2 sleeping =>
    obtain ⟨⟨a, d₁⟩, run, h⟩ := bind_eq_ok h
    obtain ⟨-, framed⟩ := call_spec run
    obtain ⟨queued, holds, progress⟩ := framed.counts
    simp only at h
    split at h
    · cases h
      exact balanced_of_silent (silent_client a.events) queued holds progress
    · cases h
      refine balanced_ended a.events queued (by simp [Demo.holds, sleeping]) (fun t => ?_) progress
      cases t <;> simp [Demo.holds, framed.receive, framed.alive]

theorem demo_balanced {turn : Task × Oracle} (h : demo d turn = .ok (happened, d')) :
    Balanced d happened d' := by
  obtain ⟨task, o⟩ := turn
  cases task with
  | connect => exact prvConnectTask_balanced h
  | receive => exact prvReceiveTask_balanced h
  | alive => exact prvAliveTask_balanced h
  | publish => exact prvPublishTask_balanced h

end Steps

theorem run_balanced {turns : List (Task × Oracle)} {happened : List (List Happening)} {d d' : Demo}
    (run : Machine.Runs demo d turns happened d') : Balanced d happened.flatten d' := by
  induction run with
  | nil => exact balanced_of_silent silent_nil rfl rfl rfl
  | cons one rest ih =>
    rw [List.flatten_cons]
    exact (demo_balanced one).append ih

theorem queued_le (d : Demo) : d.queued ≤ 1 := by
  rw [Demo.queued]
  split <;> omega

theorem holds_le (d : Demo) (task : Task) : d.holds task ≤ 1 := by
  cases task with
  | connect => exact Nat.zero_le 1
  | receive | alive | publish =>
    rw [Demo.holds]
    split <;> omega

theorem progress_le (d : Demo) : d.progress ≤ 3 := by
  rw [Demo.progress]
  split <;> omega

/-- In every interleaving a socket that is sent is taken once at the most, a task has given up
all that it took, or all but one, and connections are opened in step with that: the n-th
`mqtt_connect` comes when 3 n sockets have been sent and at least 3 n - 4 given up. -/
theorem sockets_handedOver {turns : List (Task × Oracle)} {happened : List (List Happening)}
    {d : Demo} (run : Machine.Runs demo .start turns happened d) :
    (ofAll (takes · happened.flatten) ≤ sends happened.flatten ∧
      sends happened.flatten ≤ ofAll (takes · happened.flatten) + 1) ∧
    (∀ task, ends task happened.flatten ≤ takes task happened.flatten ∧
      takes task happened.flatten ≤ ends task happened.flatten + 1) ∧
    takes .connect happened.flatten = 0 ∧
    (3 * openings happened.flatten ≤ sends happened.flatten ∧
      sends happened.flatten ≤ 3 * openings happened.flatten + 3) ∧
    3 * openings happened.flatten ≤ ofAll (ends · happened.flatten) + 4 := by
  obtain ⟨queue, tasks, opening, connect⟩ := run_balanced run
  have noQueue : Demo.start.queued = 0 := rfl
  have noTasks (task : Task) : Demo.start.holds task = 0 := by cases task <;> rfl
  have noOpening : Demo.start.progress = 0 := rfl
  have taken (task : Task) :
      takes task happened.flatten = ends task happened.flatten + d.holds task := by
    rw [← tasks task, noTasks, Nat.zero_add]
  have queued := queued_le d
  have sent := progress_le d
  have none : d.holds .connect = 0 := rfl
  simp only [ofAll] at queue ⊢
  refine ⟨by omega, fun task => ?_, connect, by omega, ?_⟩
  · have := taken task
    have := holds_le d task
    omega
  · have := taken .connect
    have := taken .receive
    have := taken .alive
    have := taken .publish
    have := holds_le d .receive
    have := holds_le d .alive
    have := holds_le d .publish
    omega

theorem sockets_handedOver_sample : ∃ happened d,
    Machine.Runs demo .start openingTurns happened d ∧ openings happened.flatten = 1 ∧
    takes .receive happened.flatten ≤ ends .receive happened.flatten + 1 := by
  obtain ⟨⟨happened, d⟩, run, once⟩ := exists_of_any (x := Machine.run demo .start openingTurns)
    (p := fun r => openings r.1.flatten = 1) (by decide +kernel)
  exact ⟨happened, d, .of_run run, of_decide_eq_true once,
    ((sockets_handedOver (.of_run run)).2.1 .receive).2⟩

def ClosesInvalid (d : Demo) : Prop := d.connect = .shuttingDown → d.xSocket = none

section Sockets

variable {d d' : Demo} {o : Oracle}

structure Uses (d : Demo) (happened : List Happening) (d' : Demo) : Prop where
  connect : d'.connect = d.connect
  xSocket : d'.xSocket = d.xSocket ∨ d'.xSocket = none
  closes : ∀ s, .closes s ∉ happened
  created : ∀ n, .created n ∉ happened
  opens : .opens ∉ happened

theorem prvReceiveTask_uses (h : prvReceiveTask d o = .ok (happened, d')) : Uses d happened d' := by
  rw [prvReceiveTask] at h
  split at h
  case h_1 | h_2 =>
    split at h <;>
    · cases h
      exact ⟨rfl, .inl rfl, by simp, by simp, by simp⟩
  case h_3 =>
    split at h
    case h_1 =>
      cases h
      exact ⟨rfl, .inr rfl, by simp, by simp, by simp⟩
    case h_2 =>
      cases h
      exact ⟨rfl, .inl rfl, by simp, by simp, by simp⟩
    case h_3 =>
      obtain ⟨⟨happened, d₁⟩, run, h⟩ := bind_eq_ok h
      cases h
      obtain ⟨-, framed, events, rfl⟩ := received_simulates run
      exact ⟨framed.connect, framed.xSocket, by simp, by simp, by simp⟩

theorem prvAliveTask_uses (h : prvAliveTask d o = .ok (happened, d')) : Uses d happened d' := by
  rw [prvAliveTask] at h
  split at h
  case h_1 =>
    split at h <;>
    · cases h
      exact ⟨rfl, .inl rfl, by simp, by simp, by simp⟩
  case h_2 =>
    obtain ⟨⟨a, d₁⟩, run, h⟩ := bind_eq_ok h
    obtain ⟨-, framed⟩ := call_spec run
    simp only at h
    split at h <;>
    · cases h
      exact ⟨framed.connect, framed.xSocket, by simp, by simp, by simp⟩

theorem prvPublishTask_uses (h : prvPublishTask d o = .ok (happened, d')) : Uses d happened d' := by
  rw [prvPublishTask] at h
  split at h
  case h_1 =>
    split at h <;>
    · cases h
      exact ⟨rfl, .inl rfl, by simp, by simp, by simp⟩
  case h_2 =>
    obtain ⟨⟨a, d₁⟩, run, h⟩ := bind_eq_ok h
    obtain ⟨-, framed⟩ := call_spec run
    simp only at h
    split at h <;>
    · cases h
      exact ⟨framed.connect, framed.xSocket, by simp, by simp, by simp⟩

theorem Uses.closesInvalid (h : Uses d happened d') (before : ClosesInvalid d) :
    ClosesInvalid d' ∧ ∀ s, .closes s ∈ happened → s = none := by
  refine ⟨fun at' => ?_, fun s mem => absurd mem (h.closes s)⟩
  rcases h.xSocket with same | none
  · rw [same]
    exact before (h.connect.symm.trans at')
  · exact none

theorem closes_of_elsewhere {happened : List Happening} (elsewhere : d'.connect ≠ .shuttingDown)
    (silent : ∀ s, .closes s ∉ happened) :
    ClosesInvalid d' ∧ ∀ s, .closes s ∈ happened → s = none :=
  ⟨fun at' => absurd at' elsewhere, fun s mem => absurd mem (silent s)⟩

theorem prvConnectTask_closes (h : prvConnectTask d o = .ok (happened, d'))
    (before : ClosesInvalid d) : ClosesInvalid d' ∧ ∀ s, .closes s ∈ happened → s = none := by
  rw [prvConnectTask] at h
  split at h
  case h_5 =>
    obtain ⟨⟨a, d₁⟩, run, h⟩ := bind_eq_ok h
    cases h
    refine closes_of_elsewhere ?_ (by simp)
    cases a.ret <;> simp
  case h_6 =>
    obtain ⟨⟨a, d₁⟩, run, h⟩ := bind_eq_ok h
    cases h
    exact closes_of_elsewhere (by simp) (by simp)
  case h_4 n at' =>
    split at h
    · cases h
      refine closes_of_elsewhere ?_ (by simp)
      by_cases last : n = 2 <;> simp [last]
    · cases h
      exact closes_of_elsewhere (by simp [at']) (by simp)
  case h_3 =>
    split at h <;>
    · cases h
      exact closes_of_elsewhere (by simp) (by simp)
  case h_7 at' =>
    split at h
    · cases h
      exact closes_of_elsewhere (by simp [at']) (by simp)
    · cases h
      exact closes_of_elsewhere (by simp) (by simp)
  case h_8 =>
    cases h
    exact ⟨fun _ => rfl, by simp⟩
  case h_9 at' =>
    cases h
    refine ⟨(fun at' => by cases at'), fun s mem => ?_⟩
    obtain rfl := Happening.closes.inj (List.mem_singleton.mp mem)
    exact before at'
  all_goals
    cases h
    exact closes_of_elsewhere (by simp) (by simp)

theorem demo_closes {turn : Task × Oracle} (h : demo d turn = .ok (happened, d'))
    (before : ClosesInvalid d) :
    ClosesInvalid d' ∧ ∀ s, .closes s ∈ happened → s = none := by
  obtain ⟨task, o⟩ := turn
  cases task with
  | connect => exact prvConnectTask_closes h before
  | receive => exact (prvReceiveTask_uses h).closesInvalid before
  | alive => exact (prvAliveTask_uses h).closesInvalid before
  | publish => exact (prvPublishTask_uses h).closesInvalid before

end Sockets

/-- In no interleaving a socket that was created is closed. -/
theorem sockets_leak {turns : List (Task × Oracle)} {happened : List (List Happening)} {d : Demo}
    (run : Machine.Runs demo .start turns happened d) (socket : Nat) :
    .closes (some socket) ∉ happened.flatten := by
  have start : ClosesInvalid .start := nofun
  generalize Demo.start = d₀ at run start
  induction run with
  | nil => simp
  | cons one rest ih =>
    obtain ⟨next, here⟩ := demo_closes one start
    rw [List.flatten_cons, List.mem_append, not_or]
    exact ⟨fun closed => Option.some_ne_none socket (here _ closed), ih next⟩

theorem sockets_leak_sample : ∃ happened d, Machine.Runs demo .start
    (List.replicate 5 (.connect, { Oracle.quiet with connects := false })) happened d ∧
    happened.flatten.length = 2 ∧ .closes (some 0) ∉ happened.flatten := by
  obtain ⟨⟨happened, d⟩, run, two⟩ := exists_of_any
    (x := Machine.run demo .start
      (List.replicate 5 (.connect, { Oracle.quiet with connects := false })))
    (p := fun r => r.1.flatten.length = 2) (by decide +kernel)
  exact ⟨happened, d, .of_run run, of_decide_eq_true two, sockets_leak (.of_run run) 0⟩

end SeparateTasks

end RojalMQTT
