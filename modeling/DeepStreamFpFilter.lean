import DeepStreamFpFilter.PromptFraming
import DeepStreamFpFilter.PromptListener
import DeepStreamFpFilter.SaveFrameTask
import DeepStreamFpFilter.SaveFrames
import DeepStreamFpFilter.SaveToggle
import DeepStreamFpFilter.Gst
import DeepStreamFpFilter.DynamicLink
import DeepStreamFpFilter.SpliceShape
import DeepStreamFpFilter.FilterToggle
import DeepStreamFpFilter.PromptHandler
import DeepStreamFpFilter.DataFlow
import DeepStreamFpFilter.SpliceLosses
import DeepStreamFpFilter.SplitAdd
import DeepStreamFpFilter.Application
