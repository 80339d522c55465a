import EventDispatch.Dispatch.Registry
import EventDispatch.Proofs.Wire.Roundtrip

/-!
# Routing

**Input.** A registry with a client for every known kind, and an event of a kind that
carries a value.

**Results.** Each known kind has the handler of its family, whatever was registered before
(`Registry.find?_registerClient`).  For an event that carries the argument of a call, this
handler makes that call (`EventKind.Carries.play`).
-/

namespace EventDispatch

namespace Registry

/-- Putting in an entry leaves the other tags as they are. -/
theorem lookup_insertEntry_of_ne {tag other : Tag} (h : other ≠ tag) (entry : Entry)
    (entries : List (Tag × Entry)) :
    (insertEntry tag entry entries).lookup other = entries.lookup other := by
  have hb : (other == tag) = false := by simpa using h
  induction entries with
  | nil => simp [insertEntry, List.lookup_cons, hb]
  | cons head rest ih =>
    obtain ⟨t, entry'⟩ := head
    simp only [insertEntry]
    split
    · simp only [List.lookup_cons, hb]
    · split
      · next heq =>
        subst heq
        simp only [List.lookup_cons, hb]
      · simp only [List.lookup_cons, ih]

theorem find?_register (r : Registry) (tag other : Tag) (c : EventClass) (h : Handler) :
    (r.register tag c h).find? other = if other = tag then some ⟨c, h⟩ else r.find? other := by
  split
  · next heq =>
    rw [heq]
    exact lookup_insertEntry_self tag ⟨c, h⟩ r.entries
  · next hne => exact lookup_insertEntry_of_ne hne ⟨c, h⟩ r.entries

end Registry

theorem EventKind.tag_injective {k k' : EventKind} (h : k.tag = k'.tag) : k = k' := by
  have hread := ofTag?_tag k
  rw [h, ofTag?_tag] at hread
  exact (Option.some.inj hread).symm

/-- Each known kind has the handler of its family. -/
theorem Registry.find?_registerClient (r : Registry) (client : Client) (k : EventKind) :
    (r.registerClient client).find? k.tag =
      some ⟨k.eventClass, (Family.ofKind k).handler client⟩ := by
  -- a kind that was registered keeps its handler while the others are
  have hall : ∀ (kinds : List EventKind) (r : Registry),
      k ∈ kinds ∨ r.find? k.tag = some ⟨k.eventClass, (Family.ofKind k).handler client⟩ →
      (kinds.foldl (fun r kind =>
        r.registerKind kind ((Family.ofKind kind).handler client)) r).find? k.tag =
        some ⟨k.eventClass, (Family.ofKind k).handler client⟩ := by
    intro kinds
    induction kinds with
    | nil => exact fun r h => h.resolve_left List.not_mem_nil
    | cons kind rest ih =>
      intro r h
      refine ih _ ?_
      simp only [registerKind, find?_register]
      split
      · next htag =>
        rw [EventKind.tag_injective htag]
        exact Or.inr rfl
      · next htag =>
        have hne : k ≠ kind := fun heq => htag (congrArg EventKind.tag heq)
        exact h.imp_left fun hmem => (List.mem_cons.1 hmem).resolve_left hne
  exact hall EventKind.all r (Or.inl (EventKind.mem_all k))

/-! ## What events carry -/

/-- The numbers of the argument are words of their size. -/
def ClientCall.Fits : ClientCall → Prop
  | createInstance machine | resizeInstance machine => machine.Fits
  | _ => True

/-- Events of a kind carry the argument of a call. -/
inductive EventKind.Carries : EventKind → ClientCall → Prop
  | createTeam (team : Team) : Carries .createTeam (.createTeam team)
  | updateTeam (team : Team) : Carries .updateTeam (.updateTeam team)
  | createJupyter (values : JupyterValues) : Carries .createJupyter (.syncJupyter values)
  | updateJupyter (values : JupyterValues) : Carries .updateJupyter (.syncJupyter values)
  | createAirflow (values : AirflowValues) : Carries .createAirflow (.syncAirflow values)
  | updateAirflow (values : AirflowValues) : Carries .updateAirflow (.syncAirflow values)
  | createCompute (machine : ComputeInstance) : Carries .createCompute (.createInstance machine)
  | resizeCompute (machine : ComputeInstance) : Carries .resizeCompute (.resizeInstance machine)
  | createUserSecret (manager : UserSecretManager) :
    Carries .createUserSecret (.createSecretManager manager)
  | rolloutJupyter (release : HelmRelease) : Carries .rolloutJupyter (.rollout release)
  | rollbackJupyter (release : HelmRelease) : Carries .rollbackJupyter (.rollback release)
  | uninstallJupyter (release : HelmRelease) : Carries .uninstallJupyter (.uninstall release)
  | rolloutAirflow (release : HelmRelease) : Carries .rolloutAirflow (.rollout release)
  | rollbackAirflow (release : HelmRelease) : Carries .rollbackAirflow (.rollback release)
  | uninstallAirflow (release : HelmRelease) : Carries .uninstallAirflow (.uninstall release)

theorem Family.payloadOf_of_survives {α : Type} [Wire α] {keys : List String}
    {fits : α → Prop} (hsurvives : Wire.Survives α keys fits) {v : α} (hv : fits v) {e : Event}
    (hpayload : e.payload = Wire.encode v) : payloadOf α e = .ok v := by
  have hread : Wire.decode e.payload = .ok v :=
    hsurvives v hv e.payload (hpayload ▸ Json.Widens.refl keys e.payload)
  simp only [payloadOf, hread]

namespace EventKind

variable {k : EventKind} {c : ClientCall} {e : Event}

theorem Carries.callFor (h : k.Carries c) (hfits : c.Fits) (hpayload : e.payload = c.argument) :
    (Family.ofKind k).callFor k e = .ok c := by
  cases h with
  | createTeam team | updateTeam team =>
    have hread := Family.payloadOf_of_survives Team.survives (v := team) trivial hpayload
    simp [Family.ofKind, Family.callFor, hread, Except.map]
  | createJupyter values | updateJupyter values =>
    have hread := Family.payloadOf_of_survives JupyterValues.survives (v := values) trivial hpayload
    simp [Family.ofKind, Family.callFor, hread, Except.map]
  | createAirflow values | updateAirflow values =>
    have hread := Family.payloadOf_of_survives AirflowValues.survives (v := values) trivial hpayload
    simp [Family.ofKind, Family.callFor, hread, Except.map]
  | createCompute machine | resizeCompute machine =>
    have hread := Family.payloadOf_of_survives ComputeInstance.survives hfits hpayload
    simp [Family.ofKind, Family.callFor, hread, Except.map]
  | createUserSecret manager =>
    have hread := Family.payloadOf_of_survives UserSecretManager.survives (v := manager) trivial
      hpayload
    simp [Family.ofKind, Family.callFor, hread, Except.map]
  | rolloutJupyter release | rollbackJupyter release | uninstallJupyter release
  | rolloutAirflow release | rollbackAirflow release | uninstallAirflow release =>
    have hread := Family.payloadOf_of_survives HelmRelease.survives (v := release) trivial hpayload
    simp [Family.ofKind, Family.callFor, hread, bind, Except.bind, pure, Except.pure]

/-- For an event that carries the argument of a call, the handler makes that call. -/
theorem Carries.play (h : k.Carries c) (hfits : c.Fits) (htag : e.tag = k.tag)
    (hpayload : e.payload = c.argument) (client : Client) (earlier : Nat) :
    ((Family.ofKind k).handler client).play earlier e =
      ⟨(client c e).1, .returned (.ok (client c e).2)⟩ := by
  have hroute : (Family.ofKind k).route e = .ok c := by
    simp only [Family.route, htag, ofTag?_tag, h.callFor hfits hpayload]
  simp only [Family.handler, hroute]

end EventKind
end EventDispatch
