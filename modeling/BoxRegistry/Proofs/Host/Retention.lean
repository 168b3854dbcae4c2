import BoxRegistry.Proofs.Host.Custody

namespace BoxRegistry.Host

namespace Custody

variable {c c' : Custody} {e : Event} {es : List Event} {pid : Pid} {n : Nat} {child : Child}

section Kept

def Attended (c : Custody) (pid : Pid) (n : Nat) : Prop :=
  c.table.Registers pid n ∧ c.reapers[n]? ≠ some .finished

def Settled (c : Custody) (pid : Pid) : Prop :=
  ∀ child, c.table.child? pid = some child → ∀ n, c.Attended pid n → n = child.channel

def Alone (c : Custody) : Prop :=
  ∀ pid child, c.table.child? pid = some child → child.released = true → ∀ n, c.Attended pid n → n = child.channel

theorem Takes.attended_before (h : Takes c e c') (hattended : c'.Attended pid n)
    : c.Attended pid n ∨ e = .launch pid := by
  rcases hattended with ⟨hregisters, hunfinished⟩
  rcases h.registers_iff.mp hregisters with hbefore | ⟨hlaunch, -⟩
  . refine .inl ⟨hbefore, fun hfinished => hunfinished ?_⟩
    have hlt : n < c.reapers.length := (List.getElem?_eq_some_iff.mp hfinished).1
    cases h with
    | launch fresh => rwa [List.getElem?_append_left hlt]
    | @publish m result waiting =>
      have hne : m ≠ n := by
        rintro rfl
        rw [waiting] at hfinished
        cases hfinished
      rwa [List.getElem?_set_ne hne]
    | @prune m pid' published registers =>
      have hne : m ≠ n := by
        rintro rfl
        rw [published] at hfinished
        cases hfinished
      rwa [List.getElem?_set_ne hne]
    | release | wait | hear => exact hfinished
  . exact .inr hlaunch

theorem Takes.child?_after (h : Takes c e c') (hchild : c.table.child? pid = some child)
    : c'.table.child? pid = some child ∧ e ≠ .release pid ∧
          (child.released = true → ∀ n, c.table.Registers pid n → e ≠ .prune n) ∨
        e = .release pid ∧
          c'.table.child? pid =
            (if (c.table.published? child.channel).isSome then none else some { child with released := true }) ∨
        ∃ n, e = .prune n ∧ c.table.Registers pid n ∧ c.reapers[n]? = some .published ∧ child.released = true ∧
          c'.table.child? pid = none := by
  cases h with
  | @launch pid' fresh =>
    have hne : pid ≠ pid' := by
      rintro rfl
      rw [fresh] at hchild
      cases hchild
    refine .inl ⟨?_, by simp, by simp⟩
    rw [ChildTable.child?_register, if_neg hne, hchild]
  | publish waiting => exact .inl ⟨hchild, by simp, by simp⟩
  | @prune n pid' published registers =>
    by_cases hpruned : pid = pid' ∧ child.released = true
    . rcases hpruned with ⟨rfl, hreleased⟩
      refine .inr (.inr ⟨n, rfl, registers, published, hreleased, ?_⟩)
      rw [ChildTable.child?_prune, if_pos ⟨rfl, by simp [hchild, hreleased]⟩]
    . have hstays : ¬(pid = pid' ∧ (c.table.child? pid').any Child.released) := by
        rintro ⟨rfl, hany⟩
        exact hpruned ⟨rfl, by simpa [hchild] using hany⟩
      refine .inl ⟨?_, by simp, ?_⟩
      . rw [ChildTable.child?_prune, if_neg hstays, hchild]
      . rintro hreleased m hm heq
        cases heq
        exact hpruned ⟨hm.unique registers, hreleased⟩
  | @release pid' =>
    by_cases hpid : pid = pid'
    . subst hpid
      refine .inr (.inl ⟨rfl, ?_⟩)
      rw [ChildTable.child?_release, if_pos rfl, hchild]
      rfl
    . refine .inl ⟨?_, by simpa using Ne.symm hpid, by simp⟩
      rw [ChildTable.child?_release, if_neg hpid, hchild]
  | wait => exact .inl ⟨hchild, by simp, by simp⟩
  | hear => exact .inl ⟨hchild, by simp, by simp⟩

theorem Sound.notMem_held (hsound : c.Sound) (hregisters : c.table.Registers pid n)
    (hnone : c.table.child? pid = none)
    : n ∉ c.table.held := by
  rw [hsound.keyed.mem_held_iff]
  rintro ⟨pid', child, hchild, rfl⟩
  cases hregisters.unique (hsound.owned pid' child hchild)
  rw [hnone] at hchild
  cases hchild

theorem Alone.takes (halone : c.Alone) (h : Takes c e c') (hsettled : ∀ pid, e = .release pid → c.Settled pid)
    : c'.Alone := by
  intro pid child hchild hreleased n hattended
  rcases h.child?_before hchild with ⟨before, hbefore, hchannel⟩ | ⟨-, rfl⟩
  . rcases h.attended_before hattended with hattended | rfl
    . rcases h.child?_after hbefore with ⟨hsame, -, -⟩ | ⟨hrelease, -⟩ | ⟨m, -, -, -, -, hnone⟩
      . cases hchild.symm.trans hsame
        exact halone pid child hbefore hreleased n hattended
      . exact (hsettled pid hrelease before hbefore n hattended).trans hchannel
      . cases hchild.symm.trans hnone
    . cases h with
      | launch fresh => cases hbefore.symm.trans fresh
  . cases hreleased

/--
What the events since the launch of a process say about its entry. It is in the table and knows whether it was released,
or the end of the process is published, it was released, and it is gone.
-/
def Kept (n : Nat) (pid : Pid) (es : List Event) (c : Custody) : Prop :=
  (∃ released, c.table.child? pid = some ⟨n, released⟩ ∧ (released = true ↔ .release pid ∈ es) ∧
      (.release pid ∈ es → .prune n ∉ es)) ∨
    n ∉ c.table.held ∧ (∃ result, .publish n result ∈ es) ∧ .release pid ∈ es

theorem kept_launch (h : Takes c (.launch pid) c') : Kept c.table.channels.length pid [] c' := by
  cases h with
  | launch fresh => exact .inl ⟨false, by rw [ChildTable.child?_register, if_pos rfl], by simp, by simp⟩

theorem Kept.takes (hkept : Kept n pid es c) (htraced : Traced n pid es c) (hsound : c.Sound) (halone : c.Alone)
    (h : Takes c e c')
    : Kept n pid (es ++ [e]) c' := by
  have hregisters := h.registers htraced.registers
  rcases hkept with ⟨released, hchild, hreleased, hunpruned⟩ | ⟨hgone, ⟨result, hpublished⟩, hrelease⟩
  . rcases h.child?_after hchild with ⟨hsame, hne, hother⟩ | ⟨rfl, hafter⟩ | ⟨m, rfl, hm, hstage, hwas, hnone⟩
    . refine .inl ⟨released, hsame, by simp [hreleased, Ne.symm hne], ?_⟩
      intro hrelease hprune
      have hrelease : .release pid ∈ es := by simpa [Ne.symm hne] using hrelease
      have hnot := hother (hreleased.mpr hrelease) n htraced.registers
      exact hunpruned hrelease (by simpa [Ne.symm hnot] using hprune)
    . -- A release takes the entry out itself if it finds the end published, and leaves it to the reaper otherwise.
      split at hafter
      . next hsome =>
        rcases Option.isSome_iff_exists.mp hsome with ⟨result, hresult⟩
        rw [htraced.published?_eq_some] at hresult
        exact .inr ⟨(hsound.takes h).notMem_held hregisters hafter, ⟨result, by simp [hresult]⟩, by simp⟩
      . next hnone =>
        refine .inl ⟨true, hafter, by simp, fun _ hprune => hnone ?_⟩
        have hfinished := htraced.finished.mpr (by simpa using hprune)
        rcases htraced.published hsound (by simp [hfinished]) with ⟨result, hpublished⟩
        rw [htraced.published?_eq_some.mpr hpublished]
        rfl
    . -- The reaper of an earlier process of the number would find this entry, but none is left.
      have hown : m = n := halone pid _ hchild hwas m ⟨hm, by simp [hstage]⟩
      subst hown
      rcases htraced.published hsound (by simp [hstage]) with ⟨result, hpublished⟩
      exact .inr ⟨(hsound.takes h).notMem_held hregisters hnone, ⟨result, by simp [hpublished]⟩,
        by simp [hreleased.mp hwas]⟩
  . exact .inr ⟨h.notMem_held hsound htraced.lt hgone, ⟨result, by simp [hpublished]⟩, by simp [hrelease]⟩

end Kept

section Runs

structure Orderly (es : List Event) (c : Custody) : Prop where
  sound : c.Sound
  alone : c.Alone
  length : c.table.channels.length = launches es
  launched : ∀ pid n, c.table.Registers pid n →
    ∃ before after, es = before ++ .launch pid :: after ∧ launches before = n
  traced : ∀ before pid after, es = before ++ .launch pid :: after → Traced (launches before) pid after c
  kept : ∀ before pid after, es = before ++ .launch pid :: after → Kept (launches before) pid after c

theorem orderly_start : Orderly [] {} where
  sound := sound_start
  alone pid child h := by cases h
  length := rfl
  launched pid n h := by
    rcases h with ⟨channel, hchannel, -⟩
    cases hchannel
  traced before pid after h := by simp at h
  kept before pid after h := by simp at h

theorem launches_append (es es' : List Event) : launches (es ++ es') = launches es + launches es' :=
  List.countP_append

theorem append_singleton_eq_split {before after : List Event} (h : es ++ [e] = before ++ .launch pid :: after)
    : after = [] ∧ before = es ∧ e = .launch pid ∨
        ∃ after', after = after' ++ [e] ∧ es = before ++ .launch pid :: after' := by
  rcases List.eq_nil_or_concat after with rfl | ⟨after', last, rfl⟩
  . rcases List.append_inj' h rfl with ⟨hes, he⟩
    cases he
    exact .inl ⟨rfl, hes.symm, rfl⟩
  . have hsplit : es ++ [e] = (before ++ .launch pid :: after') ++ [last] := by simpa using h
    rcases List.append_inj' hsplit rfl with ⟨hes, he⟩
    cases he
    exact .inr ⟨after', by simp, hes⟩

theorem Takes.length_channels (h : Takes c e c')
    : c'.table.channels.length = c.table.channels.length + launches [e] := by
  cases h <;> simp [launches, ChildTable.publish]

theorem Orderly.takes (horderly : Orderly es c) (h : Takes c e c')
    (hsettled : ∀ pid, e = .release pid → c.Settled pid)
    : Orderly (es ++ [e]) c' where
  sound := horderly.sound.takes h
  alone := horderly.alone.takes h hsettled
  length := by rw [h.length_channels, horderly.length, launches_append]
  launched pid n hregisters := by
    rcases h.registers_iff.mp hregisters with hbefore | ⟨rfl, rfl⟩
    . rcases horderly.launched pid n hbefore with ⟨before, after, rfl, hn⟩
      exact ⟨before, after ++ [e], by simp, hn⟩
    . exact ⟨es, [], rfl, horderly.length.symm⟩
  traced before pid after hsplit := by
    rcases append_singleton_eq_split hsplit with ⟨rfl, rfl, rfl⟩ | ⟨after', rfl, hes⟩
    . rw [← horderly.length]
      exact traced_launch horderly.sound h
    . exact (horderly.traced before pid after' hes).takes horderly.sound h
  kept before pid after hsplit := by
    rcases append_singleton_eq_split hsplit with ⟨rfl, rfl, rfl⟩ | ⟨after', rfl, hes⟩
    . rw [← horderly.length]
      exact kept_launch h
    . exact (horderly.kept before pid after' hes).takes (horderly.traced before pid after' hes) horderly.sound
        horderly.alone h

theorem Orderly.settled (horderly : Orderly es c) (h : .release pid ∉ es) : c.Settled pid := by
  -- All processes that had the number are in the table still, since it was not released, so there is but one.
  rintro child hchild n ⟨hregisters, -⟩
  rcases horderly.launched pid n hregisters with ⟨before, after, rfl, rfl⟩
  rcases horderly.kept before pid after rfl with ⟨released, hown, -⟩ | ⟨-, -, hrelease⟩
  . cases hchild.symm.trans hown
    rfl
  . exact absurd (by simp [hrelease]) h

theorem orderly_run? (honce : (releases es).Nodup) (h : run? {} es = some c) : Orderly es c := by
  refine run?_induction (motive := fun es c => (releases es).Nodup → Orderly es c) [] h (fun _ => orderly_start) ?_ honce
  intro past c e c' horderly htakes honce
  rw [releases, List.filterMap_append, List.nodup_append] at honce
  have hbefore := horderly honce.1
  refine hbefore.takes htakes ?_
  rintro pid rfl
  apply hbefore.settled
  rw [← mem_releases]
  exact fun hpast => honce.2.2 pid hpast pid (by simp) rfl

end Runs

/--
The table of processes neither forgets nor leaks. The entry of a process is there from its launch on until the end of
the process is published and its number is released, whichever comes first. Once both have happened and its reaper has
pruned the table, it is gone, and what is gone stays gone. Nothing but the release of its own number and its own reaper
removes it. What is published of a process is published once, and everybody who began to wait while the entry was there
is replied to with it, however late.
-/
theorem entries_are_kept_until_done (before after : List Event) (pid : Pid) {c : Custody}
    (hrun : run? {} (before ++ .launch pid :: after) = some c)
    (honce : (releases (before ++ .launch pid :: after)).Nodup)
    : let n := launches before
      (¬((∃ result, .publish n result ∈ after) ∧ .release pid ∈ after) →
        n ∈ c.table.held ∧ c.table.receiver pid = .ok n) ∧
      ((∃ result, .publish n result ∈ after) → .release pid ∈ after → .prune n ∈ after → n ∉ c.table.held) ∧
      (n ∉ c.table.held → ∀ later c', c.run? later = some c' → n ∉ c'.table.held) ∧
      (∀ e c', c.step? e = some c' → n ∈ c.table.held → n ∉ c'.table.held → e = .release pid ∨ e = .prune n) ∧
      (∀ result result', .publish n result ∈ after → .publish n result' ∈ after → result = result') ∧
      (n ∈ c.table.held → ∀ later c', c.run? (.wait pid :: later) = some c' →
        c'.Learns c.waits.length pid n (after ++ later)) := by
  intro n
  have horderly : Orderly (before ++ .launch pid :: after) c := orderly_run? honce hrun
  have hsound := horderly.sound
  have htraced := horderly.traced before pid after rfl
  have hkept := horderly.kept before pid after rfl
  have hentry (hheld : n ∈ c.table.held) : ∃ released, c.table.child? pid = some ⟨n, released⟩ := by
    rcases hkept with ⟨released, hchild, -⟩ | ⟨hgone, -⟩
    . exact ⟨released, hchild⟩
    . exact absurd hheld hgone
  refine ⟨?_, ?_, ?_, ?_, ?_, ?_⟩
  . intro hundone
    rcases hkept with ⟨released, hchild, -⟩ | ⟨-, hpublished, hrelease⟩
    . exact ⟨hsound.keyed.mem_held_iff.mpr ⟨pid, _, hchild, rfl⟩, by rw [ChildTable.receiver, hchild]⟩
    . exact absurd ⟨hpublished, hrelease⟩ hundone
  . rintro - hrelease hprune
    rcases hkept with ⟨released, -, -, hunpruned⟩ | ⟨hgone, -⟩
    . exact absurd hprune (hunpruned hrelease)
    . exact hgone
  . exact fun hgone _ _ => notMem_held_of_run? hsound htraced hgone
  . intro e c' hstep hheld hgone
    rcases hentry hheld with ⟨released, hchild⟩
    have htakes := takes_of_step? hstep
    rcases htakes.child?_after hchild with ⟨hsame, -⟩ | ⟨hrelease, -⟩ | ⟨m, rfl, hm, hstage, hwas, -⟩
    . exact absurd ((htakes.keyed hsound.keyed).mem_held_iff.mpr ⟨pid, _, hsame, rfl⟩) hgone
    . exact .inl hrelease
    . have hown : m = n := horderly.alone pid _ hchild hwas m ⟨hm, by simp [hstage]⟩
      exact .inr (congrArg Event.prune hown)
  . intro result result' hresult hresult'
    have hfirst := htraced.published?_eq_some.mpr hresult
    have hsecond := htraced.published?_eq_some.mpr hresult'
    exact Option.some.inj (hfirst.symm.trans hsecond)
  . intro hheld later c' hlater
    rcases hentry hheld with ⟨released, hchild⟩
    rcases Option.bind_eq_some_iff.mp hlater with ⟨c₁, hstep, hrest⟩
    have htakes := takes_of_step? hstep
    have hawaits := (awaits_wait htakes hchild).run? (hsound.takes htakes) hrest
    have hlearns := hawaits.learns (htraced.run? hsound hlater)
    exact ⟨fun reply hreply => by simpa using hlearns.truthful reply hreply,
      fun result hresult => hlearns.heard result (by simpa using hresult)⟩

theorem entries_are_kept_until_done_reusedNumber
    : ∃ c, run? {} [.launch 7, .publish 0 (.ok (.exited 3)), .release 7, .launch 7, .prune 0] = some c ∧
        0 ∉ c.table.held ∧ 1 ∈ c.table.held ∧ c.table.receiver 7 = .ok 1 ∧
        ∀ later c', c.run? (.wait 7 :: later) = some c' → c'.Learns c.waits.length 7 1 (.prune 0 :: later) := by
  have ⟨c, hrun⟩ : ∃ c, run? {} [.launch 7, .publish 0 (.ok (.exited 3)), .release 7, .launch 7, .prune 0] = some c :=
    ⟨_, rfl⟩
  have hfirst := entries_are_kept_until_done [] [.publish 0 (.ok (.exited 3)), .release 7, .launch 7, .prune 0] 7 hrun
    (by decide)
  have hsecond := entries_are_kept_until_done [.launch 7, .publish 0 (.ok (.exited 3)), .release 7] [.prune 0] 7 hrun
    (by decide)
  rcases hsecond.1 (by simp) with ⟨hheld, hreceiver⟩
  refine ⟨c, hrun, hfirst.2.1 ⟨_, List.mem_cons_self⟩ ?_ ?_, hheld, hreceiver, hsecond.2.2.2.2.2 hheld⟩
  . simp
  . simp [launches]

/--
A number that is released again before the reaper of an earlier process has pruned the table takes the process that has
the number now out of it.
-/
example
    : ∃ c, run? {} [.launch 7, .publish 0 (.ok (.exited 3)), .release 7, .launch 7, .release 7, .prune 0] = some c ∧
        c.table.published? 1 = none ∧ 1 ∉ c.table.held :=
  ⟨_, rfl, rfl, by decide⟩

end Custody

end BoxRegistry.Host
