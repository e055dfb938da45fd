import FfbInterceptor.Library.Substring
import FfbInterceptor.Manager.Manifest
import FfbInterceptor.Manager.Paths

/-! The home directory is taken out of the diagnostics (`manager_model.cpp`). -/
namespace FfbInterceptor.Manager
open FfbInterceptor.Launcher FfbInterceptor.Library

def widePercent : UInt16 := 0x25

section Lower

end Lower

section Redaction

variable {home front rest : WString}

/-- What the argument needs of the home directory. -/
structure Recognisable (home : WString) : Prop where
  percent : widePercent ∉ lowerCopy home
  colon : wideColon ∈ lowerCopy home

theorem Recognisable.ne_nil (h : Recognisable home) : lowerCopy home ≠ [] :=
  List.ne_nil_of_mem h.colon

end Redaction

end FfbInterceptor.Manager
