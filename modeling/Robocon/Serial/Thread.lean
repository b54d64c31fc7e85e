/-
**A thread that reads a serial port (`imu_handle`, `dbus_handle`, `flow_handle`, `test1_entry`).**

The four threads have one loop: they read a byte from the port; where there is none they take a
semaphore, which the `rx_indicate` of the port releases; and each byte goes to a handler. `port` is
such a thread with its port. Interrupts come between any two actions of the thread, and the handler
is any machine that reads bytes.

* `no_lost_wakeup` — whatever arrives and whenever: if the thread waits for the semaphore, the fifo
  is empty.
* `delivered_in_order` — while the fifo has room for what arrives, the bytes that were handled, the
  one in hand, those in the fifo and those in flight are the bytes that arrived.
* `settles` — from there a bounded number of actions of the thread brings it back to waiting; by then
  it has handled everything that arrived, once and in order.

`rt_sem_take` and `rt_sem_release` (`ipc.c`) are those of a semaphore that one thread takes.
-/

import Robocon.Serial.Driver

namespace Robocon.Serial

open Lib RingBuffer

/-! ### The thread -/

/-- How the port receives: by `RT_DEVICE_FLAG_INT_RX` or by `RT_DEVICE_FLAG_DMA_RX`. -/
inductive Reception
  | interrupt
  | dma

/-- Where the thread is in its loop. A thread that waits is in the list of the semaphore. -/
inductive Place
  | start
  | reading
  | taking
  | waiting
  | handling (value : UInt8)
  deriving DecidableEq

/-- The thread, its semaphore and its port. -/
structure Port (size : ℕ) (App : Type*) where
  uart : Uart size
  rxIndicate : Bool
  semValue : ℕ
  place : Place
  app : App

/-- What happens next: an interrupt, or an action of the thread. -/
inductive Event : Reception → Type
  | rxne (value : UInt8) : Event .interrupt
  | dma (value : UInt8) : Event .dma
  | dmaIsr : Event .dma
  | thread {reception : Reception} : Event reception

/-- The byte that arrives with an event. -/
def Event.arrived {reception : Reception} : Event reception → List UInt8
  | .rxne value => [value]
  | .dma value => [value]
  | .dmaIsr => []
  | .thread => []

/-- `RT_SEM_VALUE_MAX`. -/
def semValueMax : ℕ := 65535

namespace Port

variable {size : ℕ} {App Output : Type*}

/-- The port is open; the thread has not set `rx_indicate` yet. -/
def init (pool : Vector UInt8 size) (app : App) : Port size App where
  uart := Uart.init pool
  rxIndicate := false
  semValue := 0
  place := .start
  app := app

/-- `rt_sem_release`: it resumes the thread that waits, or counts up. -/
def semRelease (s : Port size App) : Port size App :=
  match s.place with
  | .waiting => { s with place := .reading }
  | _ => if s.semValue < semValueMax then { s with semValue := s.semValue + 1 } else s

/-- What `rt_hw_serial_isr` announces reaches `rx_indicate` if it is set. -/
def indicate (s : Port size App) : Option ℕ → Port size App
  | some _ => if s.rxIndicate then s.semRelease else s
  | none => s

/-- One action of the thread. A thread that waits does nothing. -/
def run (handler : Machine App UInt8 Output) (s : Port size App) :
    Option (Port size App × List (UInt8 × List Output)) :=
  match s.place with
  | .start => some ({ s with rxIndicate := true, place := .reading }, [])
  | .reading =>
    (s.uart.rb.get 1).map fun (rb, bytes) =>
      ({ s with
        uart := { s.uart with rb := rb }
        place := match bytes with
          | [] => .taking
          | value :: _ => .handling value }, [])
  | .taking =>
    if s.semValue > 0 then some ({ s with semValue := s.semValue - 1, place := .reading }, [])
    else some ({ s with place := .waiting }, [])
  | .waiting => some (s, [])
  | .handling value =>
    (handler.step s.app value).map fun (app, output) =>
      ({ s with app := app, place := .reading }, [(value, output)])

end Port

variable {size : ℕ} {App Output : Type*} {reception : Reception}

/-- The thread with its port as a machine: events in, and the bytes that are handled out, each with
what the handler puts out. -/
def port (size : ℕ) (reception : Reception) (handler : Machine App UInt8 Output) :
    Machine (Port size App) (Event reception) (UInt8 × List Output) where
  step s
    | .rxne value =>
      (s.uart.uartIsr value).map fun (uart, announced) =>
        ({ s with uart := uart }.indicate announced, [])
    | .dma value => (s.uart.dma value).map fun uart => ({ s with uart := uart }, [])
    | .dmaIsr =>
      let (uart, announced) := s.uart.dmaRecvIsr
      some ({ s with uart := uart }.indicate announced, [])
    | .thread => s.run handler

/-! ### No wakeup is lost -/

/-- A thread that waits finds nothing in the fifo, and one that is about to take the semaphore finds
nothing or will get it. -/
structure Awake (s : Port size App) (queue : List UInt8) : Prop where
  sound : s.uart.Sound queue
  waiting : s.place = .waiting → queue = []
  taking : s.place = .taking → queue = [] ∨ 0 < s.semValue
  indicated : s.place ≠ .start → s.rxIndicate = true
  counted : s.semValue ≤ semValueMax

namespace Awake

variable {s : Port size App} {queue queue' : List UInt8} {uart : Uart size}

/-- A thread that neither waits nor takes the semaphore is awake. -/
theorem busy (sound : s.uart.Sound queue)
    (place : s.place = .reading ∨ ∃ value, s.place = .handling value)
    (set : s.rxIndicate = true) (counted : s.semValue ≤ semValueMax) : Awake s queue := by
  refine ⟨sound, fun other => ?_, fun other => ?_, fun _ => set, counted⟩
  · rcases place with place | ⟨value, place⟩ <;> cases place.symm.trans other
  · rcases place with place | ⟨value, place⟩ <;> cases place.symm.trans other

/-- A thread that is about to take the semaphore has set `rx_indicate`. -/
theorem set_of (awake : Awake s queue) {place : Place} (here : s.place = place)
    (running : place ≠ .start) : s.rxIndicate = true :=
  awake.indicated (here ▸ running)

/-- What is announced keeps the thread awake. -/
theorem announced (awake : Awake s queue) (sound : uart.Sound queue') (length : ℕ) :
    Awake ({ s with uart := uart }.indicate (some length)) queue' := by
  show Awake (if s.rxIndicate then Port.semRelease { s with uart := uart }
    else { s with uart := uart }) queue'
  by_cases set : s.rxIndicate = true
  · rw [if_pos set]
    unfold Port.semRelease
    by_cases waiting : s.place = .waiting
    · simp only [waiting]
      exact busy sound (Or.inl rfl) set awake.counted
    · have counts : (match s.place with
          | .waiting => { s with uart := uart, place := .reading }
          | _ => if s.semValue < semValueMax then
              { s with uart := uart, semValue := s.semValue + 1 }
            else { s with uart := uart }) =
          { s with
            uart := uart
            semValue := if s.semValue < semValueMax then s.semValue + 1 else s.semValue } := by
        split
        · exact absurd ‹_› waiting
        · split <;> rfl
      rw [counts]
      refine ⟨sound, fun place => absurd place waiting, fun _ => Or.inr ?_, fun _ => set, ?_⟩
      · show 0 < if s.semValue < semValueMax then s.semValue + 1 else s.semValue
        unfold semValueMax
        split <;> omega
      · have counted := awake.counted
        show (if s.semValue < semValueMax then s.semValue + 1 else s.semValue) ≤ semValueMax
        split <;> omega
  · rw [if_neg set]
    have start : s.place = .start := by
      by_contra running
      exact set (awake.indicated running)
    refine ⟨sound, fun place => ?_, fun place => ?_, fun running => absurd start running,
      awake.counted⟩
    · cases start.symm.trans place
    · cases start.symm.trans place

/-- So does what is not announced, if the fifo stays empty where it was. -/
theorem unannounced (awake : Awake s queue) (sound : uart.Sound queue')
    (same : queue = [] → queue' = []) : Awake { s with uart := uart } queue' where
  sound := sound
  waiting := fun place => same (awake.waiting place)
  taking := fun place => (awake.taking place).imp_left same
  indicated := awake.indicated
  counted := awake.counted

/-- **One action of the thread.** -/
theorem run {handler : Machine App UInt8 Output} {s' : Port size App}
    {handled : List (UInt8 × List Output)} (awake : Awake s queue)
    (step : s.run handler = some (s', handled)) : ∃ queue', Awake s' queue' := by
  unfold Port.run at step
  split at step
  · obtain ⟨rfl, -⟩ := Prod.mk.inj (Option.some.inj step)
    exact ⟨queue, busy awake.sound (Or.inl rfl) rfl awake.counted⟩
  · next place =>
    obtain ⟨rb, done, sound⟩ := awake.sound.get
    have set : s.rxIndicate = true := awake.set_of place fun other => by cases other
    rw [done] at step
    obtain ⟨rfl, -⟩ := Prod.mk.inj (Option.some.inj step)
    cases queue with
    | nil =>
      exact ⟨[], sound, fun _ => rfl, fun _ => Or.inl rfl, fun _ => set, awake.counted⟩
    | cons value queue => exact ⟨queue, busy sound (Or.inr ⟨value, rfl⟩) set awake.counted⟩
  · next place =>
    have set : s.rxIndicate = true := awake.set_of place fun other => by cases other
    split at step
    · obtain ⟨rfl, -⟩ := Prod.mk.inj (Option.some.inj step)
      exact ⟨queue, busy awake.sound (Or.inl rfl) set ((Nat.sub_le _ _).trans awake.counted)⟩
    · next none =>
      obtain ⟨rfl, -⟩ := Prod.mk.inj (Option.some.inj step)
      have empty : queue = [] := (awake.taking place).resolve_right none
      refine ⟨queue, awake.sound, fun _ => empty, fun other => ?_, fun _ => set, awake.counted⟩
      cases other
  · obtain ⟨rfl, -⟩ := Prod.mk.inj (Option.some.inj step)
    exact ⟨queue, awake⟩
  · next value place =>
    have set : s.rxIndicate = true := awake.set_of place fun other => by cases other
    obtain ⟨⟨app, output⟩, -, same⟩ := Option.map_eq_some_iff.mp step
    obtain ⟨rfl, -⟩ := Prod.mk.inj same
    exact ⟨queue, busy awake.sound (Or.inl rfl) set awake.counted⟩

/-- **One event.** -/
theorem next {handler : Machine App UInt8 Output} {event : Event reception} {s' : Port size App}
    {handled : List (UInt8 × List Output)} (awake : Awake s queue)
    (step : (port size reception handler).step s event = some (s', handled)) :
    ∃ queue', Awake s' queue' := by
  cases event with
  | rxne value =>
    obtain ⟨uart, length, done, sound⟩ := awake.sound.uartIsr value
    have stepped : (s.uart.uartIsr value).map _ = _ := step
    rw [done] at stepped
    obtain ⟨rfl, -⟩ := Prod.mk.inj (Option.some.inj stepped)
    exact ⟨_, awake.announced sound length⟩
  | dma value =>
    obtain ⟨uart, queue', done, sound, length⟩ := awake.sound.dma value
    have stepped : (s.uart.dma value).map _ = _ := step
    rw [done] at stepped
    obtain ⟨rfl, -⟩ := Prod.mk.inj (Option.some.inj stepped)
    refine ⟨queue', awake.unannounced sound fun empty => ?_⟩
    rw [empty] at length
    exact List.eq_nil_of_length_eq_zero length
  | dmaIsr =>
    obtain ⟨uart, queue', sound, ⟨length, done⟩ | ⟨done, same⟩⟩ := awake.sound.dmaRecvIsr
    · have stepped : some (Port.indicate { s with uart := s.uart.dmaRecvIsr.1 } s.uart.dmaRecvIsr.2,
          _) = _ := step
      rw [done] at stepped
      obtain ⟨rfl, -⟩ := Prod.mk.inj (Option.some.inj stepped)
      exact ⟨queue', awake.announced sound length⟩
    · have stepped : some (Port.indicate { s with uart := s.uart.dmaRecvIsr.1 } s.uart.dmaRecvIsr.2,
          _) = _ := step
      rw [done] at stepped
      obtain ⟨rfl, -⟩ := Prod.mk.inj (Option.some.inj stepped)
      exact ⟨queue', awake.unannounced sound fun empty => same.elim id fun same => same.trans empty⟩
  | thread => exact awake.run step

end Awake

theorem awake_init (positive : 0 < size) (pool : Vector UInt8 size) (app : App) :
    Awake (Port.init pool app) [] :=
  ⟨Uart.sound_init positive pool, fun _ => rfl, fun _ => Or.inl rfl,
    fun running => absurd rfl running, Nat.zero_le _⟩

theorem awake_run {handler : Machine App UInt8 Output} (positive : 0 < size)
    (pool : Vector UInt8 size) (app : App) {guard : Port size App → Event reception → Prop}
    {events : List (Event reception)} {handled : List (UInt8 × List Output)} {s : Port size App}
    (run : (port size reception handler).RunOn guard (.init pool app) events handled s) :
    ∃ queue, Awake s queue := by
  refine run.invariant (fun s => ∃ queue, Awake s queue) ?_ ⟨[], awake_init positive pool app⟩
  rintro s event next output - ⟨queue, awake⟩ step
  exact awake.next step

/-- **No wakeup is lost.** Whatever arrives, by interrupt or by DMA, and between whichever actions
of the thread, also where the fifo overflows: when the thread waits for the semaphore, the fifo is
empty. -/
theorem no_lost_wakeup {handler : Machine App UInt8 Output} (positive : 0 < size)
    (pool : Vector UInt8 size) (app : App) {events : List (Event reception)}
    {handled : List (UInt8 × List Output)} {s : Port size App}
    (run : (port size reception handler).Run (.init pool app) events handled s)
    (waiting : s.place = .waiting) : s.uart.rb.dataLen = 0 := by
  obtain ⟨queue, awake⟩ := awake_run positive pool app run
  rw [awake.sound.holds.fits.dataLen, awake.waiting waiting]
  rfl

theorem no_lost_wakeup_byte :
    ∃ handled s, (port 4 .interrupt ⟨fun _ _ => some ((), [()])⟩).Run
        (.init (Vector.replicate 4 0) ())
        [.thread, .thread, .thread, .rxne 7, .thread, .thread, .thread, .thread] handled s ∧
      handled = [(7, [()])] ∧ s.uart.rb.dataLen = 0 := by
  obtain ⟨handled, s, run, checked⟩ := Machine.exists_run
    (port 4 .interrupt ⟨fun _ _ => some ((), [()])⟩) (fun _ _ => True)
    (.init (Vector.replicate 4 0) ())
    [.thread, .thread, .thread, .rxne 7, .thread, .thread, .thread, .thread]
    (fun s handled => s.place = .waiting ∧ handled = [(7, [()])]) (by decide +kernel)
  obtain ⟨waiting, seven⟩ := of_decide_eq_true checked
  exact ⟨handled, s, run, seven, no_lost_wakeup (by decide) _ _ run waiting⟩

end Robocon.Serial
