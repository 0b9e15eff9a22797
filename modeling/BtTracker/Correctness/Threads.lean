import BtTracker.Correctness.Conduct
import BtTracker.Semantics.Pool

/-!
# Jobs among other threads

Each job keeps to its protocol whatever the other threads do, because the
protocol does not depend on the answers.  An invariant of the memory of a single
job therefore carries over to all the threads of a pool.
-/

namespace BtTracker

open BtTracker.Foundation

variable {host : Host} {config : BtConfig} {pool after : Pool} {action : Action}

/-- Every running job keeps to its protocol, and its memory satisfies an
invariant. -/
def Pool.Conforms (host : Host) (config : BtConfig) (invariant : Datagram → Conduct → Prop)
    (pool : Pool) : Prop :=
  ∀ thread ∈ pool.threads, ∀ job program, thread.running = some (job, program) →
    ∃ conduct, Behaves host config job conduct program ∧ invariant job conduct

namespace Pool.Conforms

variable {invariant : Datagram → Conduct → Prop}

theorem start : Pool.start.Conforms host config invariant := nofun

/-- Replacing one thread keeps the pool conforming if the new one does. -/
theorem set {threads : List Thread}
    (conforms : ∀ thread ∈ threads, ∀ job program, thread.running = some (job, program) →
      ∃ conduct, Behaves host config job conduct program ∧ invariant job conduct)
    (index : Nat) {slot : Option Context} {running : Option (Datagram × Worker Unit)}
    (replaced : ∀ job program, running = some (job, program) →
      ∃ conduct, Behaves host config job conduct program ∧ invariant job conduct) :
    ∀ thread ∈ threads.set index ⟨slot, running⟩, ∀ job program,
      thread.running = some (job, program) →
        ∃ conduct, Behaves host config job conduct program ∧ invariant job conduct := by
  intro thread member job program runs
  rcases List.mem_or_eq_of_mem_set member with member | rfl
  · exact conforms thread member job program runs
  · exact replaced job program runs

/-- The job a thread is running. -/
theorem behaves (conforms : pool.Conforms host config invariant) {index : Nat}
    {slot : Option Context} {job : Datagram} {program : Worker Unit}
    (runs : pool.threads[index]? = some ⟨slot, some (job, program)⟩) :
    ∃ conduct, Behaves host config job conduct program ∧ invariant job conduct :=
  conforms _ (List.mem_of_getElem? runs) job program rfl

theorem mono {weaker : Datagram → Conduct → Prop} (conforms : pool.Conforms host config invariant)
    (weaken : ∀ job conduct, invariant job conduct → weaker job conduct) :
    pool.Conforms host config weaker := by
  intro thread member job program runs
  obtain ⟨conduct, behaves, holds⟩ := conforms thread member job program runs
  exact ⟨conduct, behaves, weaken job conduct holds⟩

/-- An invariant that holds when a job starts and survives the operations its
protocol permits holds for all jobs of a pool, whatever else happens. -/
theorem changes (changes : pool.Changes host config action after)
    (conforms : pool.Conforms host config invariant)
    (initial : ∀ job, invariant job .initial)
    (step : ∀ index slot job op next choice conduct, action = .step index choice →
      pool.threads[index]? = some ⟨slot, some (job, .call op next)⟩ →
      conduct.permits host config job op → invariant job conduct →
        invariant job (conduct.next op (World.exec op (pool.world slot choice)).1)) :
    after.Conforms host config invariant := by
  cases changes with
  | receive sender data serving => exact conforms
  | spawn =>
      intro thread member job program runs
      rcases List.mem_append.mp member with member | member
      · exact conforms thread member job program runs
      · rw [List.mem_singleton.mp member] at runs
        cases runs
  | take serving idle queued =>
      refine set conforms _ ?_
      rintro job program ⟨⟩
      exact ⟨.initial, btRequestProcessor_behaves, initial _⟩
  | perform choice calls =>
      refine set conforms _ ?_
      rintro job program ⟨⟩
      obtain ⟨conduct, follows, holds⟩ := conforms.behaves calls
      exact ⟨conduct.next _ _, follows.2 _,
        step _ _ _ _ _ choice conduct rfl calls follows.1 holds⟩
  | finish choice ends => exact set conforms _ nofun
  | wait seconds | edit whitelist members | turns action phase => exact conforms

end Pool.Conforms

/-! ## Programs of all threads -/

/-- What is left of every running job has a property. -/
def Pool.Programs (holds : Datagram → Worker Unit → Prop) (pool : Pool) : Prop :=
  ∀ thread ∈ pool.threads, ∀ job program, thread.running = some (job, program) →
    holds job program

namespace Pool.Programs

variable {holds : Datagram → Worker Unit → Prop}

theorem start : Pool.start.Programs holds := nofun

theorem at_index (programs : pool.Programs holds) {index : Nat} {slot : Option Context}
    {job : Datagram} {program : Worker Unit}
    (runs : pool.threads[index]? = some ⟨slot, some (job, program)⟩) : holds job program :=
  programs _ (List.mem_of_getElem? runs) job program rfl

/-- A property of whole jobs that no answer they get destroys is one of what is left
of them. -/
theorem changes (changes : pool.Changes host config action after) (programs : pool.Programs holds)
    (initial : ∀ job : Datagram, holds job (btRequestProcessor host config job.params))
    (step : ∀ index slot job op next choice, action = .step index choice →
      pool.threads[index]? = some ⟨slot, some (job, .call op next)⟩ → holds job (.call op next) →
        holds job (next (World.exec op (pool.world slot choice)).1)) :
    after.Programs holds := by
  have replaced {index : Nat} {slot : Option Context} {running : Option (Datagram × Worker Unit)}
      (good : ∀ job program, running = some (job, program) → holds job program) :
      ∀ thread ∈ pool.threads.set index ⟨slot, running⟩, ∀ job program,
        thread.running = some (job, program) → holds job program := by
    intro thread member job program runs
    rcases List.mem_or_eq_of_mem_set member with member | rfl
    · exact programs thread member job program runs
    · exact good job program runs
  cases changes with
  | receive sender data serving => exact programs
  | spawn =>
      intro thread member job program runs
      rcases List.mem_append.mp member with member | member
      · exact programs thread member job program runs
      · rw [List.mem_singleton.mp member] at runs
        cases runs
  | take serving idle queued =>
      apply replaced
      intro job program runs
      cases runs
      exact initial _
  | perform choice calls =>
      apply replaced
      intro job program runs
      cases runs
      exact step _ _ _ _ _ choice rfl calls (programs.at_index calls)
  | finish choice ends => exact replaced nofun
  | wait seconds | edit whitelist members | turns action phase => exact programs

end Pool.Programs

/-- What holds of every job holds of what is left of it, along every schedule. -/
theorem Pool.Reached.programs {permits : List Action → Pool → Action → Prop}
    {schedule : List Action} (reached : Reached host config permits schedule pool)
    {holds : Datagram → Worker Unit → Prop}
    (initial : ∀ job : Datagram, holds job (btRequestProcessor host config job.params))
    (step : ∀ job op next answer, holds job (.call op next) → holds job (next answer)) :
    pool.Programs holds := by
  induction reached with
  | start => exact Programs.start
  | act reached action possible permitted ih =>
      exact ih.changes (changes_act ..) initial fun _ _ job op next _ _ _ => step job op next _

/-! ## The jobs of a pool -/

theorem Pool.mem_running {index : Nat} {slot : Option Context} {job : Datagram}
    {program : Worker Unit} (runs : pool.threads[index]? = some ⟨slot, some (job, program)⟩) :
    job ∈ pool.running :=
  List.mem_filterMap.mpr ⟨_, List.mem_of_getElem? runs, rfl⟩

/-- Replacing one thread adds at most the job of the new one. -/
theorem Pool.mem_running_set {index : Nat} {thread : Thread} {job : Datagram}
    (member : job ∈ (pool.threads.set index thread).filterMap
      fun thread => thread.running.map Prod.fst) :
    job ∈ pool.running ∨ ∃ program, thread.running = some (job, program) := by
  obtain ⟨other, inside, same⟩ := List.mem_filterMap.mp member
  rcases List.mem_or_eq_of_mem_set inside with before | rfl
  · exact .inl (List.mem_filterMap.mpr ⟨other, before, same⟩)
  · obtain ⟨⟨_, program⟩, runs, rfl⟩ := Option.map_eq_some_iff.mp same
    exact .inr ⟨program, runs⟩

/-- Jobs come from the receive loop. -/
theorem Pool.Changes.jobs (changes : pool.Changes host config action after) :
    ∀ job ∈ after.queue ++ after.running, job ∈ pool.queue ++ pool.running ∨
      ∃ sender data, action = .receive sender data ∧
        job = ⟨.received pool.buff data, sender⟩ := by
  intro job member
  simp only [List.mem_append] at member ⊢
  cases changes with
  | receive sender data serving =>
      rcases member with queued | runs
      · rcases List.mem_append.mp queued with queued | arrived
        · exact .inl (.inl queued)
        · exact .inr ⟨sender, data, rfl, List.mem_singleton.mp arrived⟩
      · exact .inl (.inr runs)
  | spawn serving =>
      rcases member with queued | runs
      · exact .inl (.inl queued)
      · rw [Pool.running, List.filterMap_append] at runs
        rcases List.mem_append.mp runs with runs | started
        · exact .inl (.inr runs)
        · cases started
  | take serving idle queued =>
      rw [queued]
      rcases member with waits | runs
      · exact .inl (.inl (List.mem_cons_of_mem _ waits))
      · rcases Pool.mem_running_set runs with runs | ⟨program, started⟩
        · exact .inl (.inr runs)
        · cases started
          exact .inl (.inl (List.mem_cons_self ..))
  | perform choice calls =>
      rcases member with queued | runs
      · exact .inl (.inl queued)
      · rcases Pool.mem_running_set runs with runs | ⟨program, continues⟩
        · exact .inl (.inr runs)
        · cases continues
          exact .inl (.inr (Pool.mem_running calls))
  | finish choice ends =>
      rcases member with queued | runs
      · exact .inl (.inl queued)
      · rcases Pool.mem_running_set runs with runs | ⟨program, continues⟩
        · exact .inl (.inr runs)
        · cases continues
  | wait seconds | edit whitelist members | turns action phase => exact .inl member

/-! ## The addresses jobs read -/

/-- The job has read this address from the cell it points to. -/
def Pool.Loaded (pool : Pool) (job : Datagram) (address : SockaddrIn) : Prop :=
  ⟨job, .loadSockaddr job.params.fromAddr, address, []⟩ ∈ pool.log

theorem Pool.Changes.log_subset (changes : pool.Changes host config action after) :
    pool.log ⊆ after.log := by
  cases changes with
  | perform choice calls => exact List.subset_cons_self ..
  | _ => exact List.Subset.refl _

namespace Pool.Reached

variable {permits : List Action → Pool → Action → Prop} {schedule : List Action}

/-- The address a job remembers is one it has read. -/
theorem loads (reached : Reached host config permits schedule pool) :
    pool.Conforms host config fun job conduct =>
      ∀ address, conduct.sender = some address → pool.Loaded job address := by
  induction reached with
  | start => exact .start
  | @act schedule pool reached action possible permitted ih =>
      have kept := (pool.changes_act host config action).log_subset
      refine Conforms.changes (changes_act ..) (ih.mono fun job conduct loaded address remembered =>
        kept (loaded address remembered)) (fun _ => nofun) ?_
      rintro index slot job op next choice conduct rfl calls permitted remembers
      cases op with
      | loadSockaddr pointer =>
          intro address loaded
          cases Option.some.inj loaded
          cases permitted.2.1
          have alive : pool.phase ≠ .ended := by
            intro ended
            rw [ended] at possible
            cases possible
          rw [Pool.Loaded, act_step host config alive, advance, calls]
          exact List.mem_cons_self ..
      | redisCommand redis request => cases request <;> exact remembers
      | _ => exact remembers

/-- Every address a job has read is that of the sender of a datagram that was received. -/
theorem received_of_loaded (reached : Reached host config permits schedule pool) {job : Datagram}
    {address : SockaddrIn} (loaded : pool.Loaded job address) :
    ∃ data, .receive address data ∈ schedule := by
  suffices invariant : (pool.queue ++ pool.running ≠ [] →
      ∃ data, .receive pool.siOther data ∈ schedule) ∧
      ∀ job address, pool.Loaded job address → ∃ data, .receive address data ∈ schedule from
    invariant.2 job address loaded
  clear loaded
  induction reached with
  | start => exact ⟨fun some => absurd rfl some, nofun⟩
  | @act schedule pool reached action possible permitted ih =>
      obtain ⟨cell, loaded⟩ := ih
      have changes := pool.changes_act host config action
      generalize pool.act host config action = after at changes ⊢
      have later {address : SockaddrIn} (received : ∃ data, .receive address data ∈ schedule) :
          ∃ data, Action.receive address data ∈ action :: schedule :=
        received.imp fun data member => List.mem_cons_of_mem _ member
      have busy (unreceived : ∀ sender data, action ≠ .receive sender data)
          (some : after.queue ++ after.running ≠ []) : pool.queue ++ pool.running ≠ [] := by
        obtain ⟨job, member⟩ := List.exists_mem_of_ne_nil _ some
        rcases changes.jobs job member with before | ⟨sender, data, same, -⟩
        · exact List.ne_nil_of_mem before
        · exact absurd same (unreceived sender data)
      have before (job : Datagram) (address : SockaddrIn) (read : pool.Loaded job address) :=
        later (loaded job address read)
      cases changes with
      | receive sender data serving =>
          exact ⟨fun _ => ⟨data, List.mem_cons_self ..⟩, before⟩
      | @perform index slot job op next choice calls =>
          have ready := later (cell (List.ne_nil_of_mem (List.mem_append_right _ (mem_running calls))))
          refine ⟨fun _ => ready, fun other address read => ?_⟩
          rcases List.mem_cons.mp read with now | past
          · injection now with _ same answered _
            subst same
            cases eq_of_heq answered
            exact ready
          · exact before other address past
      | turns action phase => exact ⟨fun some => later (cell some), before⟩
      | _ => exact ⟨fun some => later (cell (busy nofun some)), before⟩

end Pool.Reached

/-! ## Commands of a thread -/

theorem Pool.reply_of_normal {choice : Choice} (normal : choice.delivery = .normal)
    (slot : Option Context) (redis : Context) (request : Redis.Command) :
    (World.exec (.redisCommand redis request) (pool.world slot choice)).1 =
      some (pool.store.exec choice.listing request).1 := by
  have calm : (pool.world slot choice).Normal := fun _ => normal
  rw [World.exec, calm.command]
  rfl

theorem Pool.store_of_normal {choice : Choice} (normal : choice.delivery = .normal)
    (slot : Option Context) (redis : Context) (request : Redis.Command) :
    (World.exec (.redisCommand redis request) (pool.world slot choice)).2.store =
      pool.store.after request := by
  have calm : (pool.world slot choice).Normal := fun _ => normal
  rw [World.exec, calm.command]
  rfl

/-! ## Edits of the operator -/

variable (host config) in
theorem Pool.listKey_ne {name : KeyName} (notList : ¬name.IsList) (whitelist : Bool) :
    Pool.listKey config whitelist ≠ name.encode host config := by
  obtain ⟨notWhitelist, notBlacklist⟩ := KeyName.encode_ne_lists notList
  cases whitelist with
  | true => exact notWhitelist.symm
  | false => exact notBlacklist.symm

/-- Editing a list of info hashes touches no other key. -/
theorem Pool.find?_edit (store : Redis.Store) (whitelist : Bool) (entry : Redis.Entry)
    {name : KeyName} (notList : ¬name.IsList) :
    (store.put (Pool.listKey config whitelist) entry).find? (name.encode host config) =
      store.find? (name.encode host config) :=
  store.find?_put_of_ne entry (Pool.listKey_ne host config notList whitelist)

/-! ## Counting -/

theorem countP_cons_add {α : Type} (counted : α → Bool) (head : α) (tail : List α) :
    (head :: tail).countP counted = tail.countP counted + (counted head).toNat := by
  rw [List.countP_cons]
  cases counted head <;> rfl

/-- Replacing one element of a list changes a count by the difference between the
two elements. -/
theorem countP_set_add {α : Type} (counted : α → Bool) {list : List α} {index : Nat}
    {old : α} (found : list[index]? = some old) (new : α) :
    (list.set index new).countP counted + (counted old).toNat =
      list.countP counted + (counted new).toNat := by
  obtain ⟨inside, rfl⟩ := List.getElem?_eq_some_iff.mp found
  have occurs : (counted list[index]).toNat ≤ list.countP counted := by
    cases holds : counted list[index] with
    | false => exact Nat.zero_le _
    | true => exact List.countP_pos_iff.mpr ⟨_, List.getElem_mem inside, holds⟩
  rw [List.countP_set inside]
  generalize list.countP counted = total at occurs ⊢
  generalize counted list[index] = before at occurs ⊢
  generalize counted new = after
  cases before <;> cases after <;> simp at occurs ⊢ <;> omega

end BtTracker
