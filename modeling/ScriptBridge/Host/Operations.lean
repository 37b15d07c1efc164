import ScriptBridge.Bridge.Catalogue

/-!
# The operations of the recording host

The native operations of `RecordingHost`, as the catalogues take them. Frame callbacks are served by
the frame queue of the machine, everything else goes to the host.
-/

namespace ScriptBridge

/-- Queue a callback for the next frame. -/
def Native.requestFrame (callback : Value) : Native Unit := do
  Script.ofExcept (← Script.ask (.requestFrame callback))

namespace RecordingHost

/-- The operations that every renderer offers, over the recording host. -/
def commonOperations : CommonOperations where
  requestAnimationFrame := Native.requestFrame
  getAnimationTimestamp := Script.ask .frameTimestamp
  progressLayoutAnimation tag values isShared := Native.host (.notifyProgress tag values isShared)
  endLayoutAnimation tag isCancelled removeView :=
    Native.host (.notifyEnd tag isCancelled removeView)
  setGestureState handler state := Native.host (.setGestureState handler state)
  maybeFlushUiUpdatesQueue := Native.host .flushUiUpdates

/-- The operations addressed by node handles, over the recording host. -/
def nodeOperations : NodeOperations where
  updateProps node props := Native.host (.updateNodeProps node props)
  removeFromPropsRegistry node := Native.host (.removeFromPropsRegistry node)
  dispatchCommand node command args := Native.host (.dispatchToNode node command args)
  measure node := measurementObject <$> Native.host (.measureNode node)
  obtainProp node name := Native.host (.obtainNodeProp node name)

/-- The operations addressed by tags, over the recording host. -/
def tagOperations : TagOperations where
  updateProps tag viewName props := Native.host (.updateViewProps tag viewName props)
  dispatchCommand tag command args := Native.host (.dispatchToView tag command args)
  scrollTo tag x y animated := Native.host (.scrollTo tag x y animated)
  measure tag := Native.host (.measureView tag)
  obtainProp tag name := Native.host (.obtainViewProp tag name)

end RecordingHost

end ScriptBridge
