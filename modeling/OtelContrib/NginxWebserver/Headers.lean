/-
Request headers in the webserver module for nginx (`ngx_http_opentelemetry_module.c`).

nginx keeps the headers of a request in parts.  Texts are as in memory, and have a NUL behind
them.
-/
import OtelContrib.Lib.PartList
import OtelContrib.Sdk.AttributeValue
import Mathlib.Data.List.TakeWhile

open Otel.Common (cString)

namespace NginxWebserver

/-- `ngx_table_elt_t`, less what nginx looks up its own headers with; the data of a value may
be null. -/
structure NgxTableElt where
  key : Bytes
  value : Option Bytes
  deriving DecidableEq

/-- An `OTEL_SDK_ENV_RECORD` that an interaction was started with. -/
structure PropagationHeader where
  name : Bytes
  value : Bytes

def tolower (b : UInt8) : UInt8 := if 65 ≤ b ∧ b ≤ 90 then b + 32 else b

/-- Whether `strcasecmp` gives zero. -/
def strcasecmp (s t : Bytes) : Bool := (cString s).map tolower = (cString t).map tolower

theorem cString_cString (s : Bytes) : cString (cString s) = cString s := List.takeWhile_idem

theorem strcasecmp_comm (s t : Bytes) : strcasecmp s t = strcasecmp t s := by
  rw [strcasecmp, strcasecmp, decide_eq_decide]
  exact eq_comm

theorem strcasecmp_trans {s t u : Bytes} (h : strcasecmp s t = true) (h' : strcasecmp t u = true) :
    strcasecmp s u = true := by
  rw [strcasecmp, decide_eq_true_iff] at *
  exact h.trans h'

/-- A text that is the same as one of two different ones is not the other. -/
theorem strcasecmp_of_ne {s t u : Bytes} (hne : strcasecmp s t = false)
    (h : strcasecmp t u = true) :
    strcasecmp s u = false := by
  refine Bool.eq_false_iff.mpr fun hsu => ?_
  rw [strcasecmp_comm] at h
  rw [strcasecmp_trans hsu h] at hne
  cases hne

end NginxWebserver
