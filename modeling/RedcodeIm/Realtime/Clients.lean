import RedcodeIm.Android.SingleSocket
import RedcodeIm.H5.SingleSocket
import RedcodeIm.Ios.SingleSocket

/-!
# The three realtime clients

* `one_socket_at_a_time` — each of them has one socket at a time, as long as it opens none beside
  what is left of another.
* `second_socket` — and not in every run.
-/

namespace RedcodeIm.Realtime

/-- **Each client has one socket at a time**, and rests after `disconnect`, in every run in which it
opens none beside what is left of another one. -/
theorem one_socket_at_a_time {Payload Payload' : Type} (P : H5.SocketSetting Payload)
    (Q : Android.Setting Payload') (R : Ios.SocketSetting) :
    H5.OneSocketKept P H5.OneSocketAdmitted ∧
      Android.OneSocketKept Q Android.OneSocketAdmitted ∧
      Ios.OneSocketKept R (Ios.OneSocketAdmitted R) :=
  ⟨H5.oneSocketKept P, Android.oneSocketKept Q, Ios.oneSocketKept R⟩

/-- After an `error` frame each of them opens a second socket beside the first. -/
theorem second_socket :
    (¬H5.OneSocketKept H5.sampleSocketSetting fun _ _ => True) ∧
      (¬Android.OneSocketKept Android.sampleSetting fun _ _ => True) ∧
      ¬Ios.OneSocketKept Ios.sampleSocketSetting fun _ _ => True :=
  ⟨H5.not_oneSocketKept, Android.not_oneSocketKept, Ios.not_oneSocketKept⟩

end RedcodeIm.Realtime
