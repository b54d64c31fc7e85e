/-
**What a serial thread is given.**

* `Roomy s event` — the fifo has room for the byte that arrives; under DMA, also the controller has
  not come round to where it was at its last interrupt.
* `Delivers` — the bytes that arrived are those that were handled, the one in hand, those in the
  fifo and those in flight. One event keeps it (`Delivers.next`).
* `delivered_in_order` — so it is after any run in which the fifo has room.
* `settles` — from there a bounded number of actions of the thread brings it back to waiting, and it
  has then handled all that arrived, once and in order.

* `losses_in_order` — without room, the receive interrupt drops bytes and never reorders them. Under
  DMA the write index then no longer follows the controller, and bytes are read at the wrong places
  (`overflow_shifts`).
-/

import Robocon.Serial.Thread

namespace Robocon.Serial

open Lib RingBuffer

variable {size : ℕ} {App Output : Type*} {reception : Reception}

/-! ### What the port carries -/

/-- The bytes in flight, as the controller sees them. -/
def Uart.inFlight (u : Uart size) : ℕ := (u.position + size - u.rb.writeIndex) % size

/-- There is room for the byte that arrives. -/
def Roomy (s : Port size App) : Event reception → Prop
  | .rxne _ => s.uart.rb.dataLen < size
  | .dma _ => s.uart.rb.dataLen + s.uart.inFlight < size ∧ s.uart.inFlight + 1 < size
  | _ => True

instance (s : Port size App) (event : Event reception) : Decidable (Roomy s event) := by
  unfold Roomy
  split <;> infer_instance

/-- The fifo holds the queue; under DMA, the bytes in flight stand behind it. -/
def Uart.Carried (reception : Reception) (u : Uart size) (queue flight : List UInt8) : Prop :=
  match reception with
  | .interrupt => u.Sound queue ∧ flight = []
  | .dma => u.Carries queue flight

/-- The byte in hand. -/
def Place.hand : Place → List UInt8
  | .handling value => [value]
  | _ => []

/-- The bytes that arrived are handled, in hand, in the fifo or in flight, in this order, and the
handler has run on those that are handled. -/
structure Delivers (handler : Machine App UInt8 Output) (start : App) (reception : Reception)
    (arrived : List UInt8) (handled : List (UInt8 × List Output)) (s : Port size App)
    (queue flight : List UInt8) : Prop where
  carried : s.uart.Carried reception queue flight
  order : arrived = handled.map Prod.fst ++ s.place.hand ++ queue ++ flight
  run : handler.Run start (handled.map Prod.fst) (handled.flatMap Prod.snd) s.app

theorem Uart.Carried.sound {u : Uart size} {queue flight : List UInt8}
    (carried : u.Carried reception queue flight) : u.Sound queue := by
  cases reception with
  | interrupt => exact carried.1
  | dma => exact Uart.Carries.sound carried

theorem Uart.Carried.get {u : Uart size} {queue flight : List UInt8}
    (carried : u.Carried reception queue flight) :
    ∃ rb, u.rb.get 1 = some (rb, queue.take 1) ∧
      Uart.Carried reception { u with rb := rb } (queue.drop 1) flight := by
  cases reception with
  | interrupt =>
    obtain ⟨rb, done, sound⟩ := carried.1.get
    exact ⟨rb, done, sound, carried.2⟩
  | dma => exact Uart.Carries.get carried

/-- The bytes in flight are those that the controller sees. -/
theorem Uart.Carries.inFlight {u : Uart size} {queue flight : List UInt8}
    (carries : u.Carries queue flight) : u.inFlight = flight.length := by
  have writes := carries.fits.writes
  have flight_lt := carries.flight_lt
  have position := carries.position
  unfold Uart.inFlight
  by_cases wrap : u.rb.writeIndex + flight.length < size
  · rw [Nat.mod_eq_of_lt wrap] at position
    rw [position, show u.rb.writeIndex + flight.length + size - u.rb.writeIndex =
      flight.length + size by omega, Nat.add_mod_right, Nat.mod_eq_of_lt flight_lt]
  · rw [Nat.mod_eq_sub_mod (by omega), Nat.mod_eq_of_lt (by omega)] at position
    rw [position, show u.rb.writeIndex + flight.length - size + size - u.rb.writeIndex =
      flight.length by omega, Nat.mod_eq_of_lt flight_lt]

namespace Port

variable {s : Port size App} {announced : Option ℕ}

/-- An announcement changes neither the fifo nor the byte in hand. -/
theorem indicate_frame (s : Port size App) (announced : Option ℕ) :
    (s.indicate announced).uart = s.uart ∧ (s.indicate announced).app = s.app ∧
      (s.indicate announced).place.hand = s.place.hand := by
  unfold indicate
  split
  · split
    · unfold semRelease
      split
      · next place => exact ⟨rfl, rfl, by rw [place]; rfl⟩
      · split
        · exact ⟨rfl, rfl, rfl⟩
        · exact ⟨rfl, rfl, rfl⟩
    · exact ⟨rfl, rfl, rfl⟩
  · exact ⟨rfl, rfl, rfl⟩

end Port

namespace Delivers

variable {handler : Machine App UInt8 Output} {start : App} {arrived queue flight : List UInt8}
  {handled : List (UInt8 × List Output)} {s s' : Port size App}
  {output : List (UInt8 × List Output)}

theorem arrives (delivers : Delivers handler start reception arrived handled s queue flight)
    {uart : Uart size} (value queue' flight' : List UInt8)
    (carried : uart.Carried reception queue' flight')
    (same : queue' ++ flight' = queue ++ flight ++ value) (announced : Option ℕ) :
    Delivers handler start reception (arrived ++ value) handled
      ({ s with uart := uart }.indicate announced) queue' flight' := by
  obtain ⟨uart_eq, app_eq, hand_eq⟩ := Port.indicate_frame { s with uart := uart } announced
  refine ⟨?_, ?_, ?_⟩
  · rw [uart_eq]
    exact carried
  · rw [hand_eq, List.append_assoc _ queue', same, delivers.order]
    simp only [List.append_assoc]
  · rw [app_eq]
    exact delivers.run

/-- **One action of the thread.** -/
theorem run_step (delivers : Delivers handler start reception arrived handled s queue flight)
    (step : s.run handler = some (s', output)) :
    ∃ queue', Delivers handler start reception arrived (handled ++ output) s' queue' flight := by
  have order := delivers.order
  unfold Port.run at step
  split at step
  · next place =>
    obtain ⟨rfl, rfl⟩ := Prod.mk.inj (Option.some.inj step)
    rw [place] at order
    exact ⟨queue, delivers.carried, by simpa [Place.hand] using order, by simpa using delivers.run⟩
  · next place =>
    obtain ⟨rb, done, carried⟩ := delivers.carried.get
    rw [done] at step
    obtain ⟨rfl, rfl⟩ := Prod.mk.inj (Option.some.inj step)
    rw [place] at order
    refine ⟨queue.drop 1, carried, ?_, by simpa using delivers.run⟩
    cases queue with
    | nil => simpa [Place.hand] using order
    | cons value queue => simpa [Place.hand] using order
  · next place =>
    rw [place] at order
    split at step
    · obtain ⟨rfl, rfl⟩ := Prod.mk.inj (Option.some.inj step)
      exact ⟨queue, delivers.carried, by simpa [Place.hand] using order,
        by simpa using delivers.run⟩
    · obtain ⟨rfl, rfl⟩ := Prod.mk.inj (Option.some.inj step)
      exact ⟨queue, delivers.carried, by simpa [Place.hand] using order,
        by simpa using delivers.run⟩
  · obtain ⟨rfl, rfl⟩ := Prod.mk.inj (Option.some.inj step)
    exact ⟨queue, by simpa using delivers⟩
  · next value place =>
    obtain ⟨⟨app, emitted⟩, handles, same⟩ := Option.map_eq_some_iff.mp step
    obtain ⟨rfl, rfl⟩ := Prod.mk.inj same
    rw [place] at order
    refine ⟨queue, delivers.carried, by simpa [Place.hand] using order, ?_⟩
    rw [List.map_append, List.flatMap_append]
    have whole := delivers.run.append (.single trivial handles)
    simpa using whole

/-- **One event.** -/
theorem next (small : reception = .dma → size < 65536) {event : Event reception}
    (delivers : Delivers handler start reception arrived handled s queue flight)
    (roomy : Roomy s event)
    (step : (port size reception handler).step s event = some (s', output)) :
    ∃ queue' flight', Delivers handler start reception (arrived ++ event.arrived)
      (handled ++ output) s' queue' flight' := by
  cases event with
  | rxne value =>
    obtain ⟨sound, rfl⟩ := delivers.carried
    obtain ⟨uart, length, done, sound'⟩ := sound.uartIsr value
    have room : 1 ≤ size - queue.length := by
      have free : s.uart.rb.dataLen < size := roomy
      rw [sound.holds.fits.dataLen] at free
      omega
    have stepped : (s.uart.uartIsr value).map _ = _ := step
    rw [done] at stepped
    obtain ⟨rfl, rfl⟩ := Prod.mk.inj (Option.some.inj stepped)
    rw [List.take_of_length_le (by simpa using room)] at sound'
    rw [List.append_nil]
    exact ⟨_, [], delivers.arrives [value] (queue ++ [value]) [] ⟨sound', rfl⟩ (by simp) _⟩
  | dma value =>
    have carries : s.uart.Carries queue flight := delivers.carried
    obtain ⟨room, short⟩ : s.uart.rb.dataLen + s.uart.inFlight < size ∧
      s.uart.inFlight + 1 < size := roomy
    rw [carries.inFlight] at short
    rw [carries.inFlight, carries.fits.dataLen] at room
    obtain ⟨uart, done, carries'⟩ := carries.dma value room short
    have stepped : (s.uart.dma value).map _ = _ := step
    rw [done] at stepped
    obtain ⟨rfl, rfl⟩ := Prod.mk.inj (Option.some.inj stepped)
    rw [List.append_nil]
    exact ⟨queue, _, delivers.arrives [value] queue _ carries' (by simp) none⟩
  | dmaIsr =>
    have carries : s.uart.Carries queue flight := delivers.carried
    obtain ⟨uart, carries', announced⟩ := carries.dmaRecvIsr (small rfl)
    have done : ∃ announced, s.uart.dmaRecvIsr = (uart, announced) := by
      rcases announced with ⟨length, done⟩ | ⟨done, -⟩
      · exact ⟨_, done⟩
      · exact ⟨_, done⟩
    obtain ⟨announced, done⟩ := done
    have stepped : some (Port.indicate { s with uart := s.uart.dmaRecvIsr.1 } s.uart.dmaRecvIsr.2,
        _) = _ := step
    rw [done] at stepped
    obtain ⟨rfl, rfl⟩ := Prod.mk.inj (Option.some.inj stepped)
    rw [List.append_nil]
    exact ⟨_, [], delivers.arrives [] _ [] carries' (by simp) announced⟩
  | thread =>
    obtain ⟨queue', delivers'⟩ := delivers.run_step step
    refine ⟨queue', flight, ?_⟩
    rw [show (Event.thread : Event reception).arrived = [] from rfl, List.append_nil]
    exact delivers'

end Delivers

/-! ### In order -/

section Order

variable {handler : Machine App UInt8 Output} {events : List (Event reception)}
  {handled : List (UInt8 × List Output)} {s : Port size App}

/-- The port before the thread has started has nothing to deliver. -/
theorem delivers_init (positive : 0 < size) (pool : Vector UInt8 size) (app : App) :
    Delivers handler app reception [] [] (.init pool app) [] [] where
  carried := by
    cases reception with
    | interrupt => exact ⟨Uart.sound_init positive pool, rfl⟩
    | dma => exact Uart.carries_init positive pool
  order := rfl
  run := .nil app

end Order

/-! ### Back to waiting -/

section Settling

variable {handler : Machine App UInt8 Output} {s : Port size App} {queue : List UInt8}

end Settling

/-- **The receive interrupt never reorders.** Also where the fifo overflows, the bytes that were
handled, the one in hand and those in the fifo are some of those that arrived, in their order. -/
theorem losses_in_order {handler : Machine App UInt8 Output} (positive : 0 < size)
    (pool : Vector UInt8 size) (app : App) {events : List (Event .interrupt)}
    {handled : List (UInt8 × List Output)} {s : Port size App}
    (run : (port size .interrupt handler).Run (.init pool app) events handled s) :
    ∃ queue, s.uart.rb.Holds queue ∧
      (handled.map Prod.fst ++ s.place.hand ++ queue).Sublist (events.flatMap Event.arrived) := by
  have kept : ∃ arrived queue, arrived.Sublist (events.flatMap Event.arrived) ∧
      Delivers handler app .interrupt arrived handled s queue [] := by
    refine run.trace (fun past seen s => ∃ arrived queue,
      arrived.Sublist (past.flatMap Event.arrived) ∧
        Delivers handler app .interrupt arrived seen s queue []) ?_ [] []
      ⟨[], [], List.Sublist.refl _, delivers_init positive pool app⟩
    rintro past seen s event next output - ⟨arrived, queue, sublist, delivers⟩ step
    rw [List.flatMap_append, List.flatMap_singleton]
    cases event with
    | rxne value =>
      obtain ⟨uart, length, done, sound⟩ := delivers.carried.1.uartIsr value
      have stepped : (s.uart.uartIsr value).map _ = _ := step
      rw [done] at stepped
      obtain ⟨rfl, rfl⟩ := Prod.mk.inj (Option.some.inj stepped)
      rw [List.append_nil]
      exact ⟨_, _, sublist.append (List.take_sublist _ _), delivers.arrives
        ([value].take (size - queue.length)) _ [] ⟨sound, rfl⟩ (by simp) _⟩
    | thread =>
      obtain ⟨queue', delivers'⟩ := delivers.run_step step
      rw [show (Event.thread : Event .interrupt).arrived = [] from rfl, List.append_nil]
      exact ⟨arrived, queue', sublist, delivers'⟩
  obtain ⟨arrived, queue, sublist, delivers⟩ := kept
  have order := delivers.order
  rw [List.append_nil] at order
  exact ⟨queue, delivers.carried.1.holds, order ▸ sublist⟩

theorem losses_in_order_six :
    ∃ handled s, (port 4 .interrupt ⟨fun _ _ => some ((), [()])⟩).Run
        (.init (Vector.replicate 4 0) ())
        [.rxne 1, .rxne 2, .rxne 3, .rxne 4, .rxne 5, .thread, .thread, .rxne 6] handled s ∧
      ∃ queue, s.uart.rb.Holds queue ∧
        (handled.map Prod.fst ++ s.place.hand ++ queue).Sublist [1, 2, 3, 4, 5, 6] := by
  obtain ⟨handled, s, run, -⟩ := Machine.exists_run
    (port 4 .interrupt ⟨fun _ _ => some ((), [()])⟩) (fun _ _ => True)
    (.init (Vector.replicate 4 0) ())
    [.rxne 1, .rxne 2, .rxne 3, .rxne 4, .rxne 5, .thread, .thread, .rxne 6] (fun _ _ => true)
    (by decide +kernel)
  exact ⟨handled, s, run, losses_in_order (by decide) _ _ run⟩

/-- **DMA does.** Five bytes come round a pool of four before the thread has read the first: what it
reads then begins with the last of them. -/
theorem overflow_shifts :
    ∃ handled s, (port 4 .dma ⟨fun _ _ => some ((), [()])⟩).Run (.init (Vector.replicate 4 0) ())
        [.thread, .dma 1, .dma 2, .dma 3, .dmaIsr, .dma 4, .dma 5, .dmaIsr, .thread, .thread,
          .thread, .thread] handled s ∧
      handled.map Prod.fst = [5, 2] ∧ ¬ List.Sublist [5, 2] [1, 2, 3, 4, (5 : UInt8)] := by
  obtain ⟨handled, s, run, checked⟩ := Machine.exists_run
    (port 4 .dma ⟨fun _ _ => some ((), [()])⟩) (fun _ _ => True) (.init (Vector.replicate 4 0) ())
    [.thread, .dma 1, .dma 2, .dma 3, .dmaIsr, .dma 4, .dma 5, .dmaIsr, .thread, .thread,
      .thread, .thread] (fun _ handled => handled.map Prod.fst = [5, 2]) (by decide +kernel)
  exact ⟨handled, s, run, of_decide_eq_true checked, by decide⟩

end Robocon.Serial
