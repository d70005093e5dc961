import CallFabric.Address
import CallFabric.Proofs.Text.Pieces
import CallFabric.Service.Directory

namespace CallFabric

open Text (exists_cons_of_not_mem dropWhile_in_front takeWhile_of_not_mem splitFirst?_append
  splitFirst?_of_not_mem splitChars_append splitChars_of_not_mem)

variable {service endpoint package method typeName : String}

namespace Address

theorem parseTarget_append (hs : service ≠ "") (he : endpoint ≠ "") (hsn : '/' ∉ service.toList)
    (hen : '/' ∉ endpoint.toList) :
    parseTarget (service ++ "/" ++ endpoint) = .ok ⟨service, endpoint⟩ := by
  have hl : (service ++ "/" ++ endpoint).toList = service.toList ++ '/' :: endpoint.toList := by
    simp
  simp only [parseTarget, hl, dropWhile_in_front hs hsn, splitChars_append,
    splitChars_of_not_mem hsn, splitChars_of_not_mem hen]
  simp [hs, he]

theorem startsWith_slash (he : endpoint ≠ "") (hn : '/' ∉ endpoint.toList) :
    Text.startsWith endpoint "/" = false := by
  obtain ⟨c, cs, hc, hne⟩ := exists_cons_of_not_mem he hn
  simp [Text.startsWith, hc, List.isPrefixOf, hne.symm]

-- What stands before the one dot of an endpoint becomes the last part of the package.
theorem methodPath_eq_some {before after : List Char} (hs : service ≠ "") (he : endpoint ≠ "")
    (hn : '/' ∉ endpoint.toList) (hl : endpoint.toList = before ++ '.' :: after)
    (hb : '.' ∉ before) :
    methodPath service endpoint =
      if '.' ∈ after then "/" ++ service ++ "/" ++ endpoint
      else "/" ++ (service ++ "." ++ .ofList before) ++ "/" ++ .ofList after := by
  have hp : Text.splitFirst? '.' endpoint = some (.ofList before, .ofList after) := by
    rw [← splitFirst?_append hb, ← hl, String.ofList_toList]
  simp [methodPath, startsWith_slash he hn, hp, Text.contains, hs, String.append_assoc]

theorem methodPath_eq_none (he : endpoint ≠ "") (hn : '/' ∉ endpoint.toList)
    (hd : '.' ∉ endpoint.toList) :
    methodPath service endpoint = "/" ++ service ++ "/" ++ endpoint := by
  simp [methodPath, startsWith_slash he hn, splitFirst?_of_not_mem hd]

end Address

namespace Service.Directory

theorem lastPart_append (h : '.' ∉ typeName.toList) :
    lastPart (package ++ "." ++ typeName) = typeName := by
  have hr : '.' ∉ typeName.toList.reverse := mt List.mem_reverse.mp h
  have hl : (package ++ "." ++ typeName).toList.reverse =
      typeName.toList.reverse ++ '.' :: package.toList.reverse := by simp
  rw [lastPart, hl, takeWhile_of_not_mem hr]
  simp

theorem getLast?_split (s : String) : (Text.split '.' s).getLast? = some (lastPart s) := by
  by_cases h : '.' ∈ s.toList
  case neg =>
    have hr : '.' ∉ s.toList.reverse := mt List.mem_reverse.mp h
    have ht : s.toList.reverse.takeWhile (· ≠ '.') = s.toList.reverse := by
      simpa using takeWhile_of_not_mem hr []
    rw [lastPart, ht]
    simp [Text.split, splitChars_of_not_mem h]
  case pos =>
    obtain ⟨last, front, hl, hn⟩ := List.eq_append_cons_of_mem (List.mem_reverse.mpr h)
    have hs : s.toList = front.reverse ++ '.' :: last.reverse := by
      simpa using congrArg List.reverse hl
    have hr : '.' ∉ last.reverse := mt List.mem_reverse.mp hn
    rw [lastPart, hl, takeWhile_of_not_mem hn]
    simp [Text.split, hs, splitChars_append, splitChars_of_not_mem hr]

variable {d : Directory}

theorem resolvePath?_eq (hp : package ≠ "") (hn : '/' ∉ package.toList) (method : String) :
    d.resolvePath? ("/" ++ package ++ "/" ++ method) =
      ((d.get? (keyOf (lastPart package) method)).or (d.get? method)).or
        (d.get? ("/" ++ package ++ "/" ++ method)) := by
  have hl : ("/" ++ package ++ "/" ++ method).toList.dropWhile (· = '/') =
      package.toList ++ '/' :: method.toList := by
    have ht : ("/" ++ package ++ "/" ++ method).toList =
        '/' :: (package.toList ++ '/' :: method.toList) := by simp
    rw [ht, List.dropWhile_cons_of_pos (by simp), dropWhile_in_front hp hn]
  simp only [resolvePath?, hl, splitFirst?_append hn, String.ofList_toList, Option.bind_some]

-- Both ways of a path lead to the endpoint's key; only where the path keeps the endpoint whole is
-- there a key before it.
theorem resolvePath?_methodPath {h : Descriptor} (hs : service ≠ "") (hsn : '/' ∉ service.toList)
    (he : endpoint ≠ "") (hen : '/' ∉ endpoint.toList) (hk : d.get? endpoint = some h) :
    d.resolvePath? (Address.methodPath service endpoint) =
      if endpoint.toList.count '.' = 1 then some h
      else (d.get? (keyOf (lastPart service) endpoint)).or (some h) := by
  have hwhole : d.resolvePath? ("/" ++ service ++ "/" ++ endpoint) =
      (d.get? (keyOf (lastPart service) endpoint)).or (some h) := by
    rw [resolvePath?_eq hs hsn, hk, Option.or_assoc, Option.some_or]
  by_cases hd : '.' ∈ endpoint.toList
  case neg =>
    have hc : endpoint.toList.count '.' = 0 := List.count_eq_zero_of_not_mem hd
    rw [Address.methodPath_eq_none he hen hd, hwhole, hc, if_neg Nat.zero_ne_one]
  case pos =>
    obtain ⟨before, after, hl, hb⟩ := List.eq_append_cons_of_mem hd
    have hc : endpoint.toList.count '.' = after.count '.' + 1 := by
      simp [hl, List.count_eq_zero_of_not_mem hb]
    rw [Address.methodPath_eq_some hs he hen hl hb, hc]
    by_cases ha : '.' ∈ after
    case pos =>
      have hpos : after.count '.' + 1 ≠ 1 := by
        have := List.count_pos_iff.mpr ha
        omega
      rw [if_pos ha, if_neg hpos, hwhole]
    case neg =>
      have hbn : '/' ∉ before := fun hm => hen (by simp [hl, hm])
      have hp : '/' ∉ (service ++ "." ++ String.ofList before).toList := by simp [hsn, hbn]
      have hkey : keyOf (.ofList before) (.ofList after) = endpoint := by
        rw [← String.toList_inj, hl]
        simp [keyOf]
      rw [if_neg ha, resolvePath?_eq (by simp) hp, lastPart_append (by simpa using hb), hkey, hk,
        List.count_eq_zero_of_not_mem ha]
      rfl

-- The path that a client makes of a service and an endpoint leads back to what the endpoint is a
-- key of. Only an endpoint that is not a type and its method can be taken for the method of a type:
-- the one that the last part of the service names.
theorem method_found (d : Directory) (hs : service ≠ "") (hsn : '/' ∉ service.toList)
    (he : endpoint ≠ "") (hen : '/' ∉ endpoint.toList) :
    Address.parseTarget (service ++ "/" ++ endpoint) = .ok ⟨service, endpoint⟩ ∧
    ∃ last, (Text.split '.' service).getLast? = some last ∧
      ∀ h, d.get? endpoint = some h →
        d.resolvePath? (Address.methodPath service endpoint) =
          if endpoint.toList.count '.' = 1 then some h
          else (d.get? (keyOf last endpoint)).or (some h) :=
  ⟨Address.parseTarget_append hs he hsn hen, lastPart service, getLast?_split service,
    fun _ hk => resolvePath?_methodPath hs hsn he hen hk⟩

-- An alias of one part, and a method of that name of the type that the service is called after.
theorem method_found_before_alias :
    let entry (name : String) : Descriptor :=
      ⟨name, [], "unit", "unit", .duplex fun _ _ _ => .succeed⟩
    let d : Directory := ⟨[("Auth.Refresh", entry "Auth.Refresh"),
      ("refresh", entry "Auth.Refresh"), ("sso.refresh", entry "sso.refresh")], .standard⟩
    ("eu.sso" ≠ "" ∧ '/' ∉ "eu.sso".toList) ∧ ("refresh" ≠ "" ∧ '/' ∉ "refresh".toList) ∧
      ("Auth.Refresh" ≠ "" ∧ '/' ∉ "Auth.Refresh".toList) ∧
      d.get? "refresh" = some (entry "Auth.Refresh") ∧
      d.resolvePath? (Address.methodPath "eu.sso" "refresh") = some (entry "sso.refresh") ∧
      d.resolvePath? (Address.methodPath "eu.sso" "Auth.Refresh") =
        some (entry "Auth.Refresh") := by
  intro entry d
  have hs : "eu.sso" ≠ "" ∧ '/' ∉ "eu.sso".toList := by decide
  have hr : "refresh" ≠ "" ∧ '/' ∉ "refresh".toList := by decide
  have ha : "Auth.Refresh" ≠ "" ∧ '/' ∉ "Auth.Refresh".toList := by decide
  obtain ⟨-, last, hl, h⟩ := method_found d hs.1 hs.2 hr.1 hr.2
  obtain rfl : last = "sso" := Option.some.inj (hl.symm.trans rfl)
  obtain ⟨-, _, -, h'⟩ := method_found d hs.1 hs.2 ha.1 ha.2
  exact ⟨hs, hr, ha, rfl, h _ rfl, h' _ rfl⟩

end Service.Directory
end CallFabric
