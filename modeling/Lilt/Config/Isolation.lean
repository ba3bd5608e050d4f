import Lilt.Config.Agreement

/-!
# Sessions with segments of their own

The launcher joins the user id, the session and the GPU with hyphens to the name of the
shared segment. A session may contain hyphens and so may the UUID of a GPU, so the same
name can be taken apart in several ways.

- `eventShmName`: the name under which a proxy opens the segment.
- `Straddles`: the two ways to take a name apart that differ.
- `sessions_isolated_iff`: two groups share a segment only for the same session and GPU,
  except in this case.
- `Straddles.uuid`: which does not arise between GPU indexes.
- `sessions_collide`: two sessions that share a segment.
-/

namespace Lilt.Config

/-! ## Joined strings -/

/-- How two strings can be joined to the same one. -/
theorem append_cons_eq_iff {α : Type} {c : α} {s₁ s₂ t₁ t₂ : List α} :
    s₁ ++ c :: t₁ = s₂ ++ c :: t₂ ↔ (s₁ = s₂ ∧ t₁ = t₂) ∨
      (∃ m, s₂ = s₁ ++ c :: m ∧ t₁ = m ++ c :: t₂) ∨
      ∃ m, s₁ = s₂ ++ c :: m ∧ t₂ = m ++ c :: t₁ := by
  constructor
  · intro h
    rcases List.append_eq_append_iff.mp h with ⟨m, hs, ht⟩ | ⟨m, hs, ht⟩
    · cases m with
      | nil =>
        rw [List.append_nil] at hs
        exact .inl ⟨hs.symm, (List.cons.inj ht).2⟩
      | cons d m =>
        obtain ⟨rfl, hrest⟩ := List.cons.inj ht
        exact .inr (.inl ⟨m, hs, hrest⟩)
    · cases m with
      | nil =>
        rw [List.append_nil] at hs
        exact .inl ⟨hs, (List.cons.inj ht).2.symm⟩
      | cons d m =>
        obtain ⟨rfl, hrest⟩ := List.cons.inj ht
        exact .inr (.inr ⟨m, hs, hrest⟩)
  · rintro (⟨rfl, rfl⟩ | ⟨m, rfl, rfl⟩ | ⟨m, rfl, rfl⟩)
    · rfl
    · rw [List.append_assoc, List.cons_append]
    · rw [List.append_assoc, List.cons_append]

/-! ## The name of the segment -/

/-- `event_shm_name` -/
def eventShmName (getenv : Env) (uid : Nat) : CString :=
  match liltGetenv getenv "LILT_EVENT_SHM_NAME".toList with
  | some ('/' :: configured) => '/' :: configured
  | _ => "/tgs-event-".toList ++ decimal uid

/-- The name that the launcher sets. -/
def launcherShmName (uid : Nat) (args : LauncherArgs) : CString :=
  "/lilt-".toList ++ decimal uid ++ "-".toList ++ args.session ++ "-".toList ++ args.gpu

section prepared

variable {host : Host} {args : LauncherArgs} {base env : Env}

theorem prepared_shmName (h : prepareEnvironment host args base = .ok env) :
    env "LILT_EVENT_SHM_NAME".toList = some (launcherShmName host.uid args) := by
  obtain ⟨-, -, -, driver, -, henv⟩ := prepareEnvironment_ok h
  exact prepared_settingName henv (by decide)

/-- The proxy uses the launcher's name. -/
theorem prepared_eventShmName (h : prepareEnvironment host args base = .ok env) (uid : Nat) :
    eventShmName env uid = launcherShmName host.uid args := by
  have hset : liltGetenv env "LILT_EVENT_SHM_NAME".toList =
      some (launcherShmName host.uid args) :=
    liltGetenv_canonical (by decide) (by decide) (prepared_shmName h)
  have hslash : launcherShmName host.uid args =
      '/' :: ("lilt-".toList ++ decimal host.uid ++ "-".toList ++ args.session ++ "-".toList ++
        args.gpu) := rfl
  unfold eventShmName
  rw [hset, hslash]
  rfl

theorem prepared_gpuAllowed (h : prepareEnvironment host args base = .ok env) :
    gpuAllowed args.gpu = true := by
  obtain ⟨-, h⟩ := Checks.require_bind h
  exact (Checks.require_bind h).1

end prepared

/-! ## When names collide -/

/-- The second session goes on where the first one ends, with the beginning of the
first GPU; the second GPU is the end of the first one. -/
def Straddles (a b : LauncherArgs) : Prop :=
  ∃ part, b.session = a.session ++ '-' :: part ∧ a.gpu = part ++ '-' :: b.gpu

theorem Straddles.session_ne {a b : LauncherArgs} (h : Straddles a b) :
    a.session ≠ b.session := by
  obtain ⟨part, hsession, -⟩ := h
  intro heq
  have hlength := congrArg List.length (heq.trans hsession)
  rw [List.length_append, List.length_cons] at hlength
  omega

/-- The first GPU is given by its UUID. -/
theorem Straddles.uuid {a b : LauncherArgs} (h : Straddles a b) (hgpu : gpuAllowed a.gpu = true) :
    "GPU-".toList <+: a.gpu := by
  obtain ⟨part, -, heq⟩ := h
  simp only [gpuAllowed, Bool.or_eq_true, Bool.and_eq_true, List.all_eq_true,
    List.isPrefixOf_iff_prefix] at hgpu
  rcases hgpu with ⟨-, hdigits⟩ | ⟨⟨hstart, -⟩, -⟩
  · -- an index has no hyphen
    have hyphen := hdigits '-' (by rw [heq]; exact List.mem_append_right _ List.mem_cons_self)
    exact absurd hyphen (by decide)
  · exact hstart

theorem launcherShmName_eq_iff {uid : Nat} {a b : LauncherArgs} :
    launcherShmName uid a = launcherShmName uid b ↔
      (a.session = b.session ∧ a.gpu = b.gpu) ∨ Straddles a b ∨ Straddles b a := by
  unfold launcherShmName
  simp only [List.append_assoc, List.append_cancel_left_eq]
  exact append_cons_eq_iff

/-- For every two sets of arguments that the launcher accepts under one user id: the
names of the segments are equal just for the same session and GPU, and the proxies share
a segment only then, exactly unless one name can be taken apart as the other. -/
theorem sessions_isolated_iff {host₁ host₂ : Host} {args₁ args₂ : LauncherArgs}
    {base₁ base₂ env₁ env₂ : Env} (huid : host₁.uid = host₂.uid)
    (h₁ : prepareEnvironment host₁ args₁ base₁ = .ok env₁)
    (h₂ : prepareEnvironment host₂ args₂ base₂ = .ok env₂) :
    (env₁ "LILT_EVENT_SHM_NAME".toList = env₂ "LILT_EVENT_SHM_NAME".toList ↔
        args₁.session = args₂.session ∧ args₁.gpu = args₂.gpu) ∧
      (eventShmName env₁ host₁.uid = eventShmName env₂ host₂.uid →
        args₁.session = args₂.session ∧ args₁.gpu = args₂.gpu) ↔
    ¬ Straddles args₁ args₂ ∧ ¬ Straddles args₂ args₁ := by
  rw [prepared_shmName h₁, prepared_shmName h₂, prepared_eventShmName h₁,
    prepared_eventShmName h₂, Option.some_inj, huid, launcherShmName_eq_iff]
  constructor
  · rintro ⟨-, hshare⟩
    constructor
    · exact fun hstraddles => hstraddles.session_ne (hshare (.inr (.inl hstraddles))).1
    · exact fun hstraddles => hstraddles.session_ne (hshare (.inr (.inr hstraddles))).1.symm
  · rintro ⟨hnot₁, hnot₂⟩
    have hsame : (args₁.session = args₂.session ∧ args₁.gpu = args₂.gpu) ∨
        Straddles args₁ args₂ ∨ Straddles args₂ args₁ →
        args₁.session = args₂.session ∧ args₁.gpu = args₂.gpu := by
      intro h
      exact h.resolve_right (not_or_intro hnot₁ hnot₂)
    exact ⟨⟨hsame, .inl⟩, hsame⟩

/-! ## Two sessions -/

/-- The default arguments of a BE process of a session. -/
def sessionArgs (session gpu : CString) : LauncherArgs :=
  { budgetArgs 80000 with session := session, gpu := gpu }

/-- Two sessions on one GPU. -/
theorem sessions_isolated_iff_index : ∃ env₁ env₂,
    prepareEnvironment installedHost (sessionArgs "a".toList "0".toList) inheritedEnv =
      .ok env₁ ∧
    prepareEnvironment installedHost (sessionArgs "a-b".toList "0".toList) inheritedEnv =
      .ok env₂ ∧
    env₁ "LILT_EVENT_SHM_NAME".toList ≠ env₂ "LILT_EVENT_SHM_NAME".toList := by
  have hok₁ : ∃ env, prepareEnvironment installedHost (sessionArgs "a".toList "0".toList)
      inheritedEnv = .ok env := ⟨_, rfl⟩
  have hok₂ : ∃ env, prepareEnvironment installedHost (sessionArgs "a-b".toList "0".toList)
      inheritedEnv = .ok env := ⟨_, rfl⟩
  obtain ⟨env₁, h₁⟩ := hok₁
  obtain ⟨env₂, h₂⟩ := hok₂
  refine ⟨env₁, env₂, h₁, h₂, fun heq => ?_⟩
  have hindex : ∀ session : CString, ¬ "GPU-".toList <+: (sessionArgs session "0".toList).gpu := by
    intro session
    show ¬ "GPU-".toList <+: "0".toList
    decide
  have hisolated := (sessions_isolated_iff rfl h₁ h₂).mpr
    ⟨fun h => hindex _ (h.uuid (prepared_gpuAllowed h₁)),
      fun h => hindex _ (h.uuid (prepared_gpuAllowed h₂))⟩
  exact absurd (hisolated.1.mp heq).1 (by decide)

/-- The session `a-GPU` on the GPU of index 1 has the segment of the session `a` on the
GPU with the UUID `GPU-1`. -/
theorem sessions_collide :
    ¬ ∀ (host : Host) (args₁ args₂ : LauncherArgs) (base env₁ env₂ : Env),
      prepareEnvironment host args₁ base = .ok env₁ →
      prepareEnvironment host args₂ base = .ok env₂ →
      (env₁ "LILT_EVENT_SHM_NAME".toList = env₂ "LILT_EVENT_SHM_NAME".toList ↔
        args₁.session = args₂.session ∧ args₁.gpu = args₂.gpu) := by
  intro hall
  have hok₁ : ∃ env, prepareEnvironment installedHost (sessionArgs "a".toList "GPU-1".toList)
      inheritedEnv = .ok env := ⟨_, rfl⟩
  have hok₂ : ∃ env, prepareEnvironment installedHost (sessionArgs "a-GPU".toList "1".toList)
      inheritedEnv = .ok env := ⟨_, rfl⟩
  obtain ⟨env₁, h₁⟩ := hok₁
  obtain ⟨env₂, h₂⟩ := hok₂
  have hname : launcherShmName installedHost.uid (sessionArgs "a".toList "GPU-1".toList) =
      launcherShmName installedHost.uid (sessionArgs "a-GPU".toList "1".toList) := rfl
  have hshared := (hall _ _ _ _ _ _ h₁ h₂).mp (by
    rw [prepared_shmName h₁, prepared_shmName h₂, hname])
  exact absurd hshared.1 (by decide)

end Lilt.Config
